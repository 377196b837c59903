import XlmNs.Resolver.Mappings

/-!
# `Resolver.Correctness.PrimaryFrame` — whose primary mapping does an edit touch?

A primary mapping from an address to a name that still has the address should survive every edit of any *other*
name (`PrimaryFrame`). The clean-up in `reverse` compares the name a mapping leads to before it drops the mapping;
the edits of a record do not: an edit that moves its name away from an address drops the primary mapping of that
address, whosever it is. `primary_frame_iff`: the frame holds along a run iff no edit in it unlinks an address that
is another name's primary (`SparesPrimaries`).
-/

namespace XlmNs.Resolver

open Soroban

variable {ω : Type} {out : Outside ω} {s s' : State}

/-- The name whose record a call edits. -/
def Call.editedName : Call → Option Bytes
  | .setRecord name _ _ _    => some name
  | .setAddress name _ _ _ _ => some name
  | .batchSet name _ _ _     => some name
  | .removeRecord name _     => some name
  | _                        => none

/-- `n` is the primary name of `a`, and has the address. -/
def IsPrimary (s : State) (a n : Bytes) : Prop := s.primary a = some n ∧ addressOf s n = some a

/-- **Primary-name frame of one transaction**: an accepted edit of a name leaves the primary mappings of the
    other names alone. -/
def PrimaryFrame (out : Outside ω) (s : State) (i : Invocation ω) : Prop :=
  ∀ m s', i.tx.call.editedName = some m → stepIn out s i = .ok s' →
    ∀ a n, IsPrimary s a n → m ≠ n → s'.primary a = some n

/-- An accepted edit of a name unlinks no address whose primary name is another one. -/
def SparesPrimaries (out : Outside ω) (s : State) (i : Invocation ω) : Prop :=
  ∀ m q, i.tx.call.editedName = some m → (∃ s', stepIn out s i = .ok s') → i.tx.call.relink s = some q →
    ∀ a n, IsPrimary s a n → m ≠ n → a ∉ q.gone

/-- An edit of a record relinks its name, or leaves the primary mappings alone. -/
theorem Effect.edited {c : Call} {m : Bytes} (h : Effect s s' c) (hm : c.editedName = some m) :
    (∃ q, c.relink s = some q ∧ Relinks q s s') ∨ (c.relink s = none ∧ s'.primary = s.primary) := by
  cases h with
  | quiet hcall _ _ hprimary => exact Or.inr ⟨hcall, hprimary⟩
  | relink hcall h => exact Or.inl ⟨_, hcall, h⟩
  | setPrimary => cases hm
  | cleanup hcall =>
      cases c with
      | clearReverseRecord | reverse | batchReverse => cases hm
      | _ => cases hcall

/-- **One step, exactly.** -/
theorem primaryFrame_iff {i : Invocation ω} : PrimaryFrame out s i ↔ SparesPrimaries out s i := by
  obtain ⟨w, env, c⟩ := i
  constructor
  · rintro hframe m q hm ⟨s', hok⟩ hq a n hprimary hne hgone
    have hkept : s'.primary a = some n := hframe m s' hm hok a n hprimary hne
    rw [((step_effect hok).relinks hq).primary a, if_pos hgone] at hkept
    cases hkept
  · intro hspares m s' hm hok a n hprimary hne
    rcases (step_effect hok).edited hm with ⟨q, hq, hrelinks⟩ | ⟨_, hsame⟩
    · have hnot : a ∉ q.gone := hspares m q hm ⟨s', hok⟩ hq a n hprimary hne
      rw [hrelinks.primary a, if_neg hnot]
      exact hprimary.1
    · rw [hsame]
      exact hprimary.1

/-- **Edits respect the other names' primary mappings throughout a run iff none of them unlinks an address that
    is another name's primary.** Anyone may call anything, in any order, while the rest of the world does what it
    likes. -/
theorem primary_frame_iff (out : Outside ω) (is : List (Invocation ω)) :
    Along (stepIn out) (PrimaryFrame out) State.empty is ↔
      Along (stepIn out) (SparesPrimaries out) State.empty is :=
  along_congr (along_of_forall (fun _ _ => primaryFrame_iff) is State.empty)

/-! ## An address two names share -/

namespace SharedAddress

open Cast

/-- Alice links her name to her address and makes it primary; Bob links his name to the same address. -/
def sharing : List (Invocation Unit) :=
  [⟨(), ⟨1000, [alice], none⟩, .setRecord aliceXlm alice alice.strkey 1000⟩,
   ⟨(), ⟨1000, [alice], none⟩, .setPrimaryName alice.strkey alice aliceXlm⟩,
   ⟨(), ⟨2000, [bob], none⟩, .setRecord bobXlm bob alice.strkey 2000⟩]

/-- Bob removes his record. -/
def leave : Invocation Unit := ⟨(), ⟨3000, [bob], none⟩, .removeRecord bobXlm bob⟩

/-- **The frame fails on the code**: Bob removes his own record, and Alice's primary mapping goes with it. -/
theorem removal_drops_foreign_primary :
    ¬ Along (stepIn nothingOutside) (PrimaryFrame nothingOutside) State.empty (sharing ++ [leave]) := by
  intro h
  have hleave := along_split sharing [] h
  generalize hs : run (stepIn nothingOutside) State.empty sharing = s at hleave
  have hprimary : IsPrimary s alice.strkey aliceXlm := by
    constructor
    · rw [← hs]; decide +kernel
    · rw [← hs]; decide +kernel
  have hafter : (exec (stepIn nothingOutside) s leave).primary alice.strkey = none := by
    rw [← hs]; decide +kernel
  rcases exec_cases (stepIn nothingOutside) s leave with hok | ⟨_, hsame⟩
  · have hkept := hleave bobXlm _ rfl hok alice.strkey aliceXlm hprimary (by decide)
    cases hafter.symm.trans hkept
  · rw [hsame, hprimary.1] at hafter
    cases hafter

end SharedAddress

end XlmNs.Resolver
