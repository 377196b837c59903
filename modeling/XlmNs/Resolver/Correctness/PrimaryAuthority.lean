import XlmNs.Resolver.Mappings

/-!
# `Resolver.Correctness.PrimaryAuthority` — who chooses an address's primary name?

The primary name of an address should be set in the name of the account at that address only, and `reverse` should
serve no other name as its primary (`PrimaryConsent`). `set_primary_name` asks for the signature of the name's
*owner* and for a forward record with the address; whose address that is, it does not ask. A history variable keeps
the primary names the accounts themselves chose. `primary_consent_iff`: the law holds along a run iff every accepted
`set_primary_name` is about the caller's own address, carries the signature of the address's account, or sets the
name that is primary already.
-/

namespace XlmNs.Resolver

open Soroban

variable {ω : Type} {out : Outside ω} {env : Env} {s s' : State} {w : ω}

/-! ## The history: primary names chosen by the accounts themselves -/

/-- For each address, the primary names set in an invocation its account authorised. -/
abbrev Choices := Bytes → Bytes → Prop

/-- How a committed transaction enters into the history. -/
def note (_ : State) (i : Invocation ω) (_ : State) (h : Choices) : Choices := fun a n =>
  h a n ∨ i.tx.env.Authorises ⟨a⟩ ∧ ∃ caller, i.tx.call = .setPrimaryName a caller n

/-- The resolver with the history next to it. -/
def watched (out : Outside ω) : State × Choices → Invocation ω → Except (Fault ResolverError) (State × Choices) :=
  withHistory (stepIn out) note

/-- Nothing was chosen yet. -/
def noChoices : Choices := fun _ _ => False

/-- The history is only watched: the resolver runs as it would without it. -/
theorem run_watched (sh : State × Choices) (is : List (Invocation ω)) :
    (run (watched out) sh is).1 = run (stepIn out) sh.1 is :=
  run_withHistory sh is

/-! ## The law -/

/-- **Primary-name authority of one transaction**: a primary name that appears was set with the authority of the
    address's account, and none is served, then or later, that the account never chose. -/
structure PrimaryConsent (out : Outside ω) (sh : State × Choices) (i : Invocation ω) : Prop where
  sets   : ∀ a n, (exec (watched out) sh i).1.primary a = some n → sh.1.primary a ≠ some n →
    i.tx.env.Authorises ⟨a⟩
  serves : ∀ env w a n, (reverseThrough out env (exec (watched out) sh i).1 w
    (exec (watched out) sh i).1.primary a).2 = some n → (exec (watched out) sh i).2 a n

/-- An accepted `set_primary_name` is about the caller's own address, or its account signed too, or nothing
    changes. -/
def OwnAddress (out : Outside ω) (sh : State × Choices) (i : Invocation ω) : Prop :=
  ∀ a caller n, i.tx.call = .setPrimaryName a caller n → (∃ s', stepIn out sh.1 i = .ok s') →
    caller.toString = a ∨ i.tx.env.Authorises ⟨a⟩ ∨ sh.1.primary a = some n

/-! ## One step -/

/-- **A primary name that appears was set by `set_primary_name`.** -/
theorem Effect.primary_new {c : Call} {a n : Bytes} (h : Effect s s' c) (hafter : s'.primary a = some n)
    (hbefore : s.primary a ≠ some n) : ∃ caller, c = .setPrimaryName a caller n := by
  cases h with
  | quiet _ _ _ hprimary =>
      rw [hprimary] at hafter
      exact absurd hafter hbefore
  | relink _ h =>
      rw [h.primary a] at hafter
      split at hafter
      · cases hafter
      · exact absurd hafter hbefore
  | @setPrimary address caller name _ _ _ hprimary =>
      rw [hprimary] at hafter
      rcases Store.set_eq_some.mp hafter with ⟨rfl, rfl⟩ | ⟨_, hafter⟩
      · exact ⟨caller, rfl⟩
      · exact absurd hafter hbefore
  | cleanup _ _ _ hprimary => exact absurd (hprimary a n hafter) hbefore

/-- What `set_primary_name` checked, and what it leaves. -/
theorem setPrimaryName_ok {a n : Bytes} {caller : Address}
    (h : step out w s ⟨env, .setPrimaryName a caller n⟩ = .ok s') :
    env.Authorises caller ∧ s'.primary a = some n := by
  simp only [step, setPrimaryName, bind_eq_ok, requireAuth_eq_ok, require_eq_ok, getRecord, okOr_eq_ok,
    pure_eq_ok, exists_const] at h
  obtain ⟨hsigned, _, _, _, _, _, rfl⟩ := h
  exact ⟨hsigned, Store.set_self _ _ _⟩

/-- What a lookup finds is in its mapping. -/
theorem reverseThrough_found {mapping : Store Bytes Bytes} {a n : Bytes}
    (h : (reverseThrough out env s w mapping a).2 = some n) : mapping a = some n := by
  unfold reverseThrough at h
  split at h
  · cases h
  · rename_i name hname
    split at h
    · exact hname.trans h
    · cases h

/-- Every primary mapping is a choice of the address's account. -/
def Chosen (sh : State × Choices) : Prop := ∀ a n, sh.1.primary a = some n → sh.2 a n

theorem chosen_empty : Chosen (State.empty, noChoices) := by
  intro a n h
  cases h

/-- A primary name that appears carries the authority of the address's account. -/
theorem authorised_of_ownAddress {sh : State × Choices} {i : Invocation ω} {a n : Bytes}
    (hown : OwnAddress out sh i) (hok : stepIn out sh.1 i = .ok s') (hafter : s'.primary a = some n)
    (hbefore : sh.1.primary a ≠ some n) :
    i.tx.env.Authorises ⟨a⟩ ∧ ∃ caller, i.tx.call = .setPrimaryName a caller n := by
  obtain ⟨caller, hcall⟩ := (step_effect (c := i.tx.call) hok).primary_new hafter hbefore
  refine ⟨?_, caller, hcall⟩
  rcases hown a caller n hcall ⟨s', hok⟩ with hcaller | hsigned | hsame
  · -- the caller's signature is the account's
    obtain ⟨w, env, c⟩ := i
    subst hcall hcaller
    exact (setPrimaryName_ok hok).1
  · exact hsigned
  · exact absurd hsame hbefore

/-- **The choices keep up** with the primary mappings. -/
theorem Chosen.exec {sh : State × Choices} {i : Invocation ω} (h : Chosen sh) (hown : OwnAddress out sh i) :
    Chosen (exec (watched out) sh i) := by
  apply exec_of_ok h
  rintro ⟨s', h'⟩ hok
  obtain ⟨hstep, rfl⟩ := withHistory_eq_ok.mp hok
  intro a n hafter
  by_cases hbefore : sh.1.primary a = some n
  · exact Or.inl (h a n hbefore)
  · exact Or.inr (authorised_of_ownAddress hown hstep hafter hbefore)

/-- **One step, exactly.** -/
theorem primaryConsent_iff {sh : State × Choices} {i : Invocation ω} (h : Chosen sh) :
    PrimaryConsent out sh i ↔ OwnAddress out sh i := by
  constructor
  · rintro hconsent a caller n hcall ⟨s', hok⟩
    have hexec : (Soroban.exec (watched out) sh i).1 = s' :=
      (exec_withHistory sh i).trans (exec_ok hok)
    by_cases hbefore : sh.1.primary a = some n
    · exact Or.inr (Or.inr hbefore)
    · refine Or.inr (Or.inl (hconsent.sets a n ?_ hbefore))
      obtain ⟨w, env, c⟩ := i
      subst hcall
      rw [hexec]
      exact (setPrimaryName_ok hok).2
  · intro hown
    constructor
    · intro a n hafter hbefore
      rw [show (Soroban.exec (watched out) sh i).1 = _ from exec_withHistory sh i] at hafter
      rcases exec_cases (stepIn out) sh.1 i with hok | ⟨_, hsame⟩
      · exact (authorised_of_ownAddress hown hok hafter hbefore).1
      · rw [hsame] at hafter
        exact absurd hafter hbefore
    · intro env w a n hfound
      exact h.exec hown a n (reverseThrough_found hfound)

/-! ## Whole runs -/

/-- **Primary names carry the authority of the address's account throughout a run iff every accepted
    `set_primary_name` is about the caller's own address, is signed by the address's account, or changes nothing.**
    Anyone may call anything, in any order, while the rest of the world does what it likes. -/
theorem primary_consent_iff (out : Outside ω) (is : List (Invocation ω)) :
    Along (watched out) (PrimaryConsent out) (State.empty, noChoices) is ↔
      Along (watched out) (OwnAddress out) (State.empty, noChoices) is :=
  along_iff (P := PrimaryConsent out) (Q := OwnAddress out) (fun _ _ h => primaryConsent_iff h)
    (fun _ _ h hconsent => h.exec ((primaryConsent_iff h).mp hconsent)) chosen_empty

/-! ## A name imposed on somebody else's address -/

namespace ImposedName

open Cast

/-- Mallory's own name. -/
def malloryXlm : Bytes := ascii "mallory.xlm"

/-- Mallory links his name to Alice's address. -/
def link : Invocation Unit := ⟨(), ⟨1000, [mallory], none⟩, .setRecord malloryXlm mallory alice.strkey 1000⟩

/-- He makes it her primary name. -/
def impose : Invocation Unit := ⟨(), ⟨2000, [mallory], none⟩, .setPrimaryName alice.strkey mallory malloryXlm⟩

/-- **The law fails on the code**: Mallory gives his name Alice's address and makes it her primary name. Alice
    signs nothing. -/
theorem primary_without_consent :
    ¬ Along (watched nothingOutside) (PrimaryConsent nothingOutside) (State.empty, noChoices)
      [link, impose] := by
  intro h
  obtain ⟨_, himpose, _⟩ := h
  generalize hsh : exec (watched nothingOutside) (State.empty, noChoices) link = sh at himpose
  have hbefore : sh.1.primary alice.strkey ≠ some malloryXlm := by rw [← hsh]; decide +kernel
  have hafter : (exec (watched nothingOutside) sh impose).1.primary alice.strkey = some malloryXlm := by
    rw [← hsh]; decide +kernel
  exact absurd (himpose.sets alice.strkey malloryXlm hafter hbefore) (by decide)

end ImposedName

end XlmNs.Resolver
