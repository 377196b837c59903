import XlmNs.Resolver.Mappings

/-!
# `Resolver.Forgetting` — the resolver with some mappings forgotten

Reverse queries delete mappings, and the rest of the resolver hardly reads any. `forget L s` is the storage `s`
without the mappings `L` lists; every call but a reverse query does to it what it does to `s`, and writes some
forgotten mappings anew (`step_forget`). A reverse query shows a difference exactly when the mapping it would have been
answered through is forgotten (`Unharmed`, `reverse_forget`).
-/

namespace XlmNs.Resolver

open Soroban

variable {ω : Type} {out : Outside ω} {env : Env} {s s' : State} {w : ω}
variable {name address : Bytes} {L : Lost}

/-- Addresses whose primary, and whose reverse mapping is forgotten. -/
structure Lost where
  primary : Bytes → Bool
  reverse : Bytes → Bool

/-- The storage without the forgotten mappings. -/
def forget (L : Lost) (s : State) : State :=
  { s with reverse := s.reverse.hide L.reverse, primary := s.primary.hide L.primary }

/-- The mappings at these addresses are written anew. -/
def Lost.rewritten (L : Lost) (reverse primary : List Bytes) : Lost where
  primary := fun a => L.primary a && decide (a ∉ primary)
  reverse := fun a => L.reverse a && decide (a ∉ reverse)

theorem Lost.rewritten_nil (L : Lost) : L.rewritten [] [] = L := by
  simp [Lost.rewritten]

theorem Lost.rewritten_append (L : Lost) (rs rs' ps ps' : List Bytes) :
    (L.rewritten rs ps).rewritten rs' ps' = L.rewritten (rs ++ rs') (ps ++ ps') := by
  simp [Lost.rewritten, Bool.and_assoc]

/-- The addresses a batch operation writes the reverse mapping of. -/
def BatchOp.links : BatchOp → List Bytes
  | .setAddress address => [address]
  | .setText _ _        => []

/-- The addresses whose reverse, and whose primary mapping a call writes. -/
def Call.writes : Call → List Bytes × List Bytes
  | .setRecord _ _ address _        => ([address], [])
  | .setAddress _ _ chain address _ => (if chain = defaultChain then [address] else [], [])
  | .setPrimaryName address _ _     => ([], [address])
  | .batchSet _ _ ops _             => (ops.flatMap BatchOp.links, [])
  | _                               => ([], [])

/-- What a committed call leaves forgotten. -/
def Lost.after (L : Lost) (c : Call) : Lost := L.rewritten c.writes.1 c.writes.2

/-! ## Writes -/

theorem putRecord_forget (L : Lost) (s : State) (name : Bytes) (record : ResolutionRecord) :
    putRecord (forget L s) name record = forget L (putRecord s name record) := rfl

/-- A reverse mapping that is written is there again. -/
theorem setReverse_forget (L : Lost) (s : State) (address name : Bytes) :
    setReverse (forget L s) address name = forget (L.rewritten [address] []) (setReverse s address name) := by
  simp [setReverse, forget, Store.hide_set, Lost.rewritten]

/-- Removing mappings goes with forgetting others. -/
theorem removeMappings_forget (L : Lost) (s : State) (address : Bytes) :
    removeMappings (forget L s) address = forget L (removeMappings s address) := by
  simp only [removeMappings, forget, Store.hide_remove]

/-- So does unlinking an old address. -/
theorem unlinkOld_forget (L : Lost) (s : State) (record : ResolutionRecord) (address : Bytes) :
    unlinkOld (forget L s) record address = forget L (unlinkOld s record address) := by
  unfold unlinkOld
  -- there is an old address to unlink only if it is another one
  split
  · split
    · exact removeMappings_forget L s _
    · rfl
  · rfl

/-- A mapping is removed if it leads to `name`; a forgotten one leads nowhere. -/
theorem cleanup_forget (L : Lost) (s : State) (address name : Bytes) :
    cleanupStaleReverse (forget L s) address name = forget L (cleanupStaleReverse s address name) := by
  have hslot : ∀ (hidden : Bytes → Bool) (m : Store Bytes Bytes),
      (if m.hide hidden address = some name then (m.hide hidden).remove address else m.hide hidden)
        = (if m address = some name then m.remove address else m).hide hidden := by
    intro hidden m
    cases hh : hidden address with
    | true =>
        rw [Store.hide_of_hidden m hh, if_neg (by simp)]
        split
        · rw [← Store.hide_remove, Store.remove_absent (Store.hide_of_hidden m hh)]
        · rfl
    | false =>
        rw [Store.hide_of_shown m hh]
        split
        · exact Store.hide_remove hidden m address
        · rfl
  unfold cleanupStaleReverse forget
  congr 1
  · exact hslot L.reverse s.reverse
  · exact hslot L.primary s.primary

/-- One pass of a batch. -/
theorem applyOp_forget (L : Lost) (s : State) (name : Bytes) (record : ResolutionRecord) (applied : UInt32)
    (op : BatchOp) :
    applyOp name (forget L s, record, applied) op
      = (forget (L.rewritten op.links []) (applyOp name (s, record, applied) op).1,
          (applyOp name (s, record, applied) op).2) := by
  cases op with
  | setAddress address =>
      simp only [applyOp, unlinkOld_forget, setReverse_forget]
      rfl
  | setText key value =>
      have hnone : L.rewritten (BatchOp.setText key value).links [] = L := L.rewritten_nil
      rw [hnone]
      simp only [applyOp]
      split <;> rfl

/-- A batch writes its addresses anew. -/
theorem batch_forget (L : Lost) (s : State) (name : Bytes) (record : ResolutionRecord) (applied : UInt32)
    (ops : List BatchOp) :
    ops.foldl (applyOp name) (forget L s, record, applied)
      = (forget (L.rewritten (ops.flatMap BatchOp.links) []) (ops.foldl (applyOp name) (s, record, applied)).1,
          (ops.foldl (applyOp name) (s, record, applied)).2) := by
  -- on the operations, each writing some forgotten mappings anew
  induction ops generalizing L s record applied with
  | nil =>
      have hnone : L.rewritten (([] : List BatchOp).flatMap BatchOp.links) [] = L := L.rewritten_nil
      rw [hnone]
      rfl
  | cons op ops ih =>
      rw [List.foldl_cons, List.foldl_cons, applyOp_forget, ih, Lost.rewritten_append]
      rfl

/-! ## Every call but a reverse query -/

/-- The calls that answer a reverse query. -/
def Call.isReverseQuery : Call → Bool
  | .reverse .. | .batchReverse .. => true
  | _ => false

/-- **A call that is no reverse query does the same whether or not mappings are forgotten.** -/
theorem step_forget {c : Call} (hc : c.isReverseQuery = false) :
    step out w (forget L s) ⟨env, c⟩ = (step out w s ⟨env, c⟩).map (forget (L.after c)) := by
  have hquiet : c.writes = ([], []) → L.after c = L := by
    intro hnone
    rw [Lost.after, hnone]
    exact L.rewritten_nil
  cases c with
  | reverse | batchReverse => cases hc
  | initializeContract registry admin =>
      rw [hquiet rfl]
      simp only [step, initializeContract, map_bind_outcome]
      rfl
  | setSubdomainContract subdomainContract =>
      rw [hquiet rfl]
      simp only [step, setSubdomainContract, map_bind_outcome]
      rfl
  | upgrade migrationData =>
      rw [hquiet rfl]
      simp only [step, upgrade, upgradeStoring, map_bind_outcome]
      rfl
  | setTextRecord name caller key value nowUnix =>
      rw [hquiet rfl]
      simp only [step, setTextRecord, map_bind_outcome]
      rfl
  | updateOwner name caller newOwner =>
      rw [hquiet rfl]
      simp only [step, updateOwner, map_bind_outcome]
      rfl
  | transferRecordOwner name caller newOwner =>
      rw [hquiet rfl]
      simp only [step, transferRecordOwner, map_bind_outcome]
      rfl
  | setWildcardResolution name caller enabled nowUnix =>
      rw [hquiet rfl]
      simp only [step, setWildcardResolution, map_bind_outcome]
      rfl
  | removeRecord name caller =>
      rw [hquiet rfl]
      simp only [step, removeRecord, map_bind_outcome]
      refine bind_congr fun _ => bind_congr fun record => bind_congr fun _ => ?_
      cases record.defaultAddress with
      | none => rfl
      | some old =>
          simp only [removeMappings_forget]
          rfl
  | clearReverseRecord name previousOwner =>
      rw [hquiet rfl]
      simp only [step, clearReverseRecord, map_bind_outcome, cleanup_forget]
      rfl
  | setRecord name owner address nowUnix =>
      simp only [step, setRecord, map_bind_outcome]
      refine bind_congr fun _ => bind_congr fun _ => bind_congr fun found => bind_congr fun _ => bind_congr fun _ => ?_
      cases hold : s.forward name with
      | none =>
          have hold' : (forget L s).forward name = none := hold
          simp only [hold', putRecord_forget, setReverse_forget]
          rfl
      | some existing =>
          have hold' : (forget L s).forward name = some existing := hold
          simp only [hold', unlinkOld_forget, putRecord_forget, setReverse_forget]
          rfl
  | setAddress name caller chain address nowUnix =>
      simp only [step, setAddress, map_bind_outcome]
      refine bind_congr fun _ => bind_congr fun record => bind_congr fun _ => ?_
      by_cases hchain : chain = defaultChain
      · have hafter : L.after (.setAddress name caller chain address nowUnix) = L.rewritten [address] [] := by
          simp only [Lost.after, Call.writes, if_pos hchain]
        rw [if_pos hchain, if_pos hchain, hafter, unlinkOld_forget, setReverse_forget]
        rfl
      · have hafter : L.after (.setAddress name caller chain address nowUnix) = L := by
          simp only [Lost.after, Call.writes, if_neg hchain]
          exact L.rewritten_nil
        rw [if_neg hchain, if_neg hchain, hafter]
        rfl
  | setPrimaryName address caller name =>
      simp only [step, setPrimaryName, map_bind_outcome]
      refine bind_congr fun _ => bind_congr fun record => bind_congr fun _ => bind_congr fun _ => ?_
      show Except.ok { forget L s with primary := (s.primary.hide L.primary).set address name } = _
      rw [Store.hide_set]
      simp [Lost.after, Call.writes, Lost.rewritten, forget, Except.map, pure, Except.pure]
  | batchSet name caller ops nowUnix =>
      simp only [step, batchSet, bind_assoc, map_bind_outcome]
      refine bind_congr fun _ => bind_congr fun _ => bind_congr fun _ => bind_congr fun record => bind_congr fun _ => ?_
      rw [batch_forget]
      rfl

/-! ## Reverse queries -/

/-- A mapping of `a` leads to a name that still has the address and the owner on record. -/
def live (out : Outside ω) (env : Env) (s : State) (w : ω) (a : Bytes) (mapping : Store Bytes Bytes) : Bool :=
  (mapping a).any (fun n => reverseLookupMatchesCurrentOwner out env s w n a)

/-- What a query leaves that found no live primary mapping: no primary mapping, and a reverse mapping if it is
    live. -/
def swept (out : Outside ω) (env : Env) (s : State) (w : ω) (a : Bytes) : State :=
  { s with
    primary := s.primary.remove a
    reverse := if live out env s w a s.reverse then s.reverse else s.reverse.remove a }

variable {a : Bytes} {mapping : Store Bytes Bytes}

theorem live_of_none (h : mapping a = none) : live out env s w a mapping = false := by
  rw [live, h]
  rfl

theorem live_of_some {n : Bytes} (h : mapping a = some n) :
    live out env s w a mapping = reverseLookupMatchesCurrentOwner out env s w n a := by
  rw [live, h]
  rfl

/-- A lookup through a live mapping returns it. -/
theorem reverseThrough_live (h : live out env s w a mapping = true) :
    reverseThrough out env s w mapping a = (s, mapping a) := by
  unfold reverseThrough
  cases hm : mapping a with
  | none => rfl
  | some n =>
      rw [live_of_some hm] at h
      simp only [h, if_true]

/-- **A reverse query** answers through the first live mapping, and drops the others it tried. -/
theorem reverse_live (h : live out env s w a s.primary = true) : reverse out env s w a = (s, s.primary a) := by
  unfold reverse
  rw [reverseThrough_live h]
  cases hp : s.primary a with
  | none =>
      rw [live_of_none hp] at h
      cases h
  | some n => rfl

/-- The second lookup of a query, once there is no primary mapping. -/
theorem reverseThrough_reverse (hp : s.primary a = none) :
    reverseThrough out env s w s.reverse a
      = (swept out env s w a, if live out env s w a s.reverse then s.reverse a else none) := by
  have hprimary : s.primary.remove a = s.primary := Store.remove_absent hp
  unfold reverseThrough swept
  rw [hprimary]
  cases hr : s.reverse a with
  | none => rw [live_of_none hr, if_neg Bool.false_ne_true, if_neg Bool.false_ne_true, Store.remove_absent hr]
  | some n =>
      rw [live_of_some hr]
      cases hmatch : reverseLookupMatchesCurrentOwner out env s w n a with
      | true => simp [hmatch]
      | false => simp [hmatch, cleanupStaleReverse, hr, hp]

/-- A primary mapping that is outdated is swept, and the reverse mapping answers. -/
theorem reverse_not_live (h : live out env s w a s.primary = false) :
    reverse out env s w a = (swept out env s w a, if live out env s w a s.reverse then s.reverse a else none) := by
  unfold reverse
  cases hp : s.primary a with
  | none =>
      have hfirst : reverseThrough out env s w s.primary a = (s, none) := by
        unfold reverseThrough
        rw [hp]
      rw [hfirst]
      exact reverseThrough_reverse hp
  | some n =>
      rw [live_of_some hp] at h
      have hfirst : reverseThrough out env s w s.primary a = (cleanupStaleReverse s a n, none) := by
        unfold reverseThrough
        rw [hp]
        simp [h]
      rw [hfirst]
      show reverseThrough out env (cleanupStaleReverse s a n) w (cleanupStaleReverse s a n).reverse a = _
      have hgone : (cleanupStaleReverse s a n).primary a = none := by
        simp [cleanupStaleReverse, hp]
      rw [reverseThrough_reverse hgone]
      -- the clean-up leaves what a name is matched against, and the reverse mapping unless it leads to `n` too
      by_cases hr : s.reverse a = some n
      · have hdead : live out env s w a s.reverse = false := (live_of_some hr).trans h
        have hdead' : live out env (cleanupStaleReverse s a n) w a (s.reverse.remove a) = false :=
          live_of_none (Store.remove_self _ _)
        have hclean : (cleanupStaleReverse s a n).reverse = s.reverse.remove a := if_pos hr
        rw [hclean, hdead, hdead']
        simp [swept, hdead, Store.remove_absent, cleanupStaleReverse, hp, hr]
      · have hclean : cleanupStaleReverse s a n = { s with primary := s.primary.remove a } := by
          simp [cleanupStaleReverse, hp, hr]
        have hprimary : (s.primary.remove a).remove a = s.primary.remove a :=
          Store.remove_absent (Store.remove_self _ _)
        rw [hclean]
        simp only [swept, hprimary]
        rfl

/-! ## What reverse queries forget -/

/-- What is forgotten is not live. -/
theorem live_hidden {hidden : Bytes → Bool} (h : hidden a = true) :
    live out env (forget L s) w a (mapping.hide hidden) = false :=
  live_of_none (Store.hide_of_hidden mapping h)

/-- What is not forgotten is as live as before. -/
theorem live_shown {hidden : Bytes → Bool} (h : hidden a = false) :
    live out env (forget L s) w a (mapping.hide hidden) = live out env s w a mapping := by
  unfold live
  rw [Store.hide_of_shown mapping h]
  rfl

theorem live_congr {mapping' : Store Bytes Bytes} (h : mapping' a = mapping a) :
    live out env s w a mapping' = live out env s w a mapping := by
  unfold live
  rw [h]

/-- **The outdated mappings that queries of `addresses` find**: a primary mapping that is not live, and with it a
    reverse mapping that is not live either. -/
def outdated (out : Outside ω) (env : Env) (s : State) (w : ω) (addresses : List Bytes) : Lost where
  primary := fun a => decide (a ∈ addresses) && !live out env s w a s.primary
  reverse := fun a => decide (a ∈ addresses) && !live out env s w a s.primary && !live out env s w a s.reverse

/-- Where a mapping is live, nothing is outdated but a primary mapping that is not. -/
theorem outdated_of_live (addresses : List Bytes) (h : live out env s w a s.primary = true) :
    (outdated out env s w addresses).primary a = false ∧ (outdated out env s w addresses).reverse a = false := by
  simp [outdated, h]

/-- Forgetting what is outdated leaves what is live. -/
theorem live_primary_outdated (addresses : List Bytes) :
    live out env (forget (outdated out env s w addresses) s) w a
        (forget (outdated out env s w addresses) s).primary
      = live out env s w a s.primary := by
  cases hlive : live out env s w a s.primary with
  | true => exact (live_shown (outdated_of_live addresses hlive).1).trans hlive
  | false =>
      cases hL : (outdated out env s w addresses).primary a with
      | true => exact live_hidden hL
      | false => exact (live_shown hL).trans hlive

theorem live_reverse_outdated (addresses : List Bytes) :
    live out env (forget (outdated out env s w addresses) s) w a
        (forget (outdated out env s w addresses) s).reverse
      = live out env s w a s.reverse := by
  cases hL : (outdated out env s w addresses).reverse a with
  | false => exact live_shown hL
  | true =>
      have hdead : live out env s w a s.reverse = false := by
        simp only [outdated, Bool.and_eq_true, Bool.not_eq_true'] at hL
        exact hL.2
      rw [hdead]
      exact live_hidden hL

/-- **A reverse query forgets the outdated mappings it finds.** -/
theorem reverse_forgets (out : Outside ω) (env : Env) (s : State) (w : ω) (a : Bytes) :
    (reverse out env s w a).1 = forget (outdated out env s w [a]) s := by
  cases hp : live out env s w a s.primary with
  | true =>
      have hnone : ∀ b, (outdated out env s w [a]).primary b = false ∧ (outdated out env s w [a]).reverse b = false := by
        intro b
        by_cases hb : b = a <;> simp [outdated, hb, hp]
      rw [reverse_live hp, forget, Store.hide_none _ (fun b => (hnone b).1), Store.hide_none _ (fun b => (hnone b).2)]
  | false =>
      -- without a live primary mapping it is dropped, and so is a reverse mapping that is not live
      have hprimary : s.primary.remove a = s.primary.hide (outdated out env s w [a]).primary := by
        funext b
        by_cases hb : b = a
        · simp [Store.hide, outdated, hb, hp]
        · simp [Store.hide, outdated, hb, Store.remove_ne _ hb]
      have hreverse : (if live out env s w a s.reverse then s.reverse else s.reverse.remove a)
          = s.reverse.hide (outdated out env s w [a]).reverse := by
        funext b
        by_cases hb : b = a
        · cases hr : live out env s w a s.reverse <;> simp [Store.hide, outdated, hb, hp, hr]
        · cases hr : live out env s w a s.reverse <;> simp [Store.hide, outdated, hb, Store.remove_ne _ hb]
      rw [reverse_not_live hp, forget, ← hprimary, ← hreverse]
      rfl

theorem forget_forget (L L' : Lost) (s : State) :
    forget L (forget L' s)
      = forget ⟨fun b => L.primary b || L'.primary b, fun b => L.reverse b || L'.reverse b⟩ s := by
  simp only [forget, Store.hide_hide]

/-- What two queries forget one after the other. -/
theorem forget_outdated (a : Bytes) (addresses : List Bytes) :
    forget (outdated out env (forget (outdated out env s w [a]) s) w addresses) (forget (outdated out env s w [a]) s)
      = forget (outdated out env s w (a :: addresses)) s := by
  have hunion : ∀ b : Bytes, decide (b ∈ a :: addresses) = (decide (b ∈ addresses) || decide (b ∈ [a])) := by
    intro b
    simp [Bool.or_comm]
  have hprimary : ∀ b, (outdated out env s w (a :: addresses)).primary b
      = ((outdated out env (forget (outdated out env s w [a]) s) w addresses).primary b
          || (outdated out env s w [a]).primary b) := by
    intro b
    show (_ && !live out env s w b s.primary) = ((_ && !_) || (_ && !_))
    rw [live_primary_outdated, ← Bool.and_or_distrib_right, hunion]
  have hreverse : ∀ b, (outdated out env s w (a :: addresses)).reverse b
      = ((outdated out env (forget (outdated out env s w [a]) s) w addresses).reverse b
          || (outdated out env s w [a]).reverse b) := by
    intro b
    show (_ && !live out env s w b s.primary && !live out env s w b s.reverse)
      = ((_ && !_ && !_) || (_ && !_ && !_))
    rw [live_primary_outdated, live_reverse_outdated, ← Bool.and_or_distrib_right, ← Bool.and_or_distrib_right, hunion]
  rw [forget_forget, ← funext hprimary, ← funext hreverse]

/-- **So does a batch.** -/
theorem batchReverse_forgets (out : Outside ω) (env : Env) (s : State) (w : ω) (addresses : List Bytes) :
    (batchReverse out env s w addresses).1 = forget (outdated out env s w addresses) s := by
  -- on the addresses: what is forgotten for one is outdated for none of the others
  induction addresses generalizing s with
  | nil =>
      have hprimary : s.primary.hide (outdated out env s w []).primary = s.primary := Store.hide_none _ (fun _ => rfl)
      have hreverse : s.reverse.hide (outdated out env s w []).reverse = s.reverse := Store.hide_none _ (fun _ => rfl)
      rw [forget, hprimary, hreverse]
      rfl
  | cons a addresses ih =>
      show (batchReverse out env (reverse out env s w a).1 w addresses).1 = _
      rw [ih, reverse_forgets, forget_outdated]

/-! ## Reverse queries with mappings forgotten -/

/-- **What is forgotten does not matter to a query of `a`**: a forgotten primary mapping is outdated, or the reverse
    mapping leads to the same name; a forgotten reverse mapping is outdated, or the primary mapping is not. -/
structure Unharmed (out : Outside ω) (env : Env) (s : State) (w : ω) (L : Lost) (a : Bytes) : Prop where
  primary : L.primary a = true → live out env s w a s.primary = true →
    L.reverse a = false ∧ s.reverse a = s.primary a
  reverse : L.reverse a = true → live out env s w a s.reverse = true → live out env s w a s.primary = true

/-- Not having a live primary mapping, with and without the forgotten mappings. -/
theorem swept_forget (h : live out env (forget L s) w a (s.reverse.hide L.reverse) = live out env s w a s.reverse) :
    swept out env (forget L s) w a = forget L (swept out env s w a) := by
  show ({ forget L s with
    primary := (s.primary.hide L.primary).remove a
    reverse := if live out env (forget L s) w a (s.reverse.hide L.reverse) then s.reverse.hide L.reverse
      else (s.reverse.hide L.reverse).remove a } : State) = _
  rw [h, Store.hide_remove, Store.hide_remove]
  unfold swept forget
  cases live out env s w a s.reverse <;> rfl

/-- A live reverse mapping is answered the same iff it is not forgotten. -/
theorem second_forget :
    (if live out env (forget L s) w a (s.reverse.hide L.reverse) then s.reverse.hide L.reverse a else none)
        = (if live out env s w a s.reverse then s.reverse a else none) ↔
      live out env (forget L s) w a (s.reverse.hide L.reverse) = live out env s w a s.reverse := by
  cases hL : L.reverse a with
  | false =>
      rw [live_shown hL, Store.hide_of_shown s.reverse hL]
      exact iff_of_true rfl rfl
  | true =>
      rw [live_hidden hL, if_neg Bool.false_ne_true]
      cases hlive : live out env s w a s.reverse with
      | false => exact iff_of_true rfl rfl
      | true =>
          cases hr : s.reverse a with
          | none => cases (live_of_none hr).symm.trans hlive
          | some n => exact iff_of_false (fun h => by cases h) (fun h => by cases h)

/-- A live primary mapping that is forgotten is made up for iff the reverse mapping leads to the same name. -/
theorem hidden_forget (hp : live out env s w a s.primary = true) :
    (if live out env (forget L s) w a (s.reverse.hide L.reverse) then s.reverse.hide L.reverse a else none)
        = s.primary a ↔
      L.reverse a = false ∧ s.reverse a = s.primary a := by
  have hsome : s.primary a ≠ none := by
    intro hnone
    cases (live_of_none hnone).symm.trans hp
  constructor
  · intro h
    cases hL : L.reverse a with
    | true =>
        rw [live_hidden hL, if_neg Bool.false_ne_true] at h
        exact absurd h.symm hsome
    | false =>
        rw [live_shown hL, Store.hide_of_shown s.reverse hL] at h
        split at h
        · exact ⟨rfl, h⟩
        · exact absurd h.symm hsome
  · rintro ⟨hL, hr⟩
    rw [live_shown hL, Store.hide_of_shown s.reverse hL, live_congr hr, hp]
    exact hr

/-- **A reverse query answers the same with the mappings forgotten iff it is unharmed**, and then leaves the same but
    for them. -/
theorem reverse_forget (L : Lost) (s : State) :
    ((reverse out env (forget L s) w a).2 = (reverse out env s w a).2 ↔ Unharmed out env s w L a) ∧
      (Unharmed out env s w L a →
        (reverse out env (forget L s) w a).1 = forget L (reverse out env s w a).1) := by
  have hsecond : live out env s w a s.primary = false →
      (live out env (forget L s) w a (s.reverse.hide L.reverse) = live out env s w a s.reverse ↔
        Unharmed out env s w L a) := by
    intro hdead
    constructor
    · intro hsame
      refine ⟨fun _ hlive => absurd (hdead.symm.trans hlive) Bool.false_ne_true, ?_⟩
      intro hL hlive
      rw [live_hidden hL, hlive] at hsame
      cases hsame
    · intro h
      cases hL : L.reverse a with
      | false => exact live_shown hL
      | true =>
          rw [live_hidden hL]
          cases hlive : live out env s w a s.reverse with
          | false => rfl
          | true => cases hdead.symm.trans (h.reverse hL hlive)
  -- as with nothing forgotten, the primary mapping is tried first
  cases hp : live out env s w a s.primary with
  | false =>
      have hdead : live out env (forget L s) w a (forget L s).primary = false := by
        show live out env (forget L s) w a (s.primary.hide L.primary) = false
        cases hL : L.primary a with
        | false => exact (live_shown hL).trans hp
        | true => exact live_hidden hL
      rw [reverse_not_live hp, reverse_not_live hdead]
      exact ⟨second_forget.trans (hsecond hp), fun h => swept_forget ((hsecond hp).mpr h)⟩
  | true =>
      rw [reverse_live hp]
      cases hL : L.primary a with
      | false =>
          have hlive : live out env (forget L s) w a (forget L s).primary = true := (live_shown hL).trans hp
          have hunharmed : Unharmed out env s w L a :=
            ⟨fun h => absurd (hL.symm.trans h) Bool.false_ne_true, fun _ _ => hp⟩
          rw [reverse_live hlive]
          exact ⟨iff_of_true (Store.hide_of_shown s.primary hL) hunharmed, fun _ => rfl⟩
      | true =>
          have hdead : live out env (forget L s) w a (forget L s).primary = false := live_hidden hL
          rw [reverse_not_live hdead]
          constructor
          · refine (hidden_forget hp).trans ⟨fun h => ⟨fun _ _ => h, fun _ _ => hp⟩, fun h => h.primary hL hp⟩
          · intro h
            obtain ⟨hL', hr⟩ := h.primary hL hp
            have hkept : live out env (forget L s) w a (s.reverse.hide L.reverse) = true := by
              rw [live_shown hL', live_congr hr]
              exact hp
            -- nothing is dropped: the primary mapping is forgotten already, the reverse mapping is live
            show ({ forget L s with
              primary := (s.primary.hide L.primary).remove a
              reverse := if live out env (forget L s) w a (s.reverse.hide L.reverse) then s.reverse.hide L.reverse
                else (s.reverse.hide L.reverse).remove a } : State) = forget L s
            rw [hkept, Store.remove_absent (Store.hide_of_hidden s.primary hL)]
            rfl

/-- A query harms no other, and not a second one of the same address. -/
theorem unharmed_after {b : Bytes} :
    Unharmed out env (reverse out env s w a).1 w L b ↔ Unharmed out env s w L b := by
  rw [reverse_forgets]
  have hkept : live out env s w b s.primary = true →
      (forget (outdated out env s w [a]) s).reverse b = s.reverse b ∧
      (forget (outdated out env s w [a]) s).primary b = s.primary b := by
    intro hlive
    obtain ⟨hprimary, hreverse⟩ := outdated_of_live [a] hlive
    exact ⟨Store.hide_of_shown s.reverse hreverse, Store.hide_of_shown s.primary hprimary⟩
  constructor
  · rintro ⟨hprimary, hreverse⟩
    rw [live_primary_outdated] at hprimary hreverse
    rw [live_reverse_outdated] at hreverse
    refine ⟨fun hL hlive => ?_, hreverse⟩
    rw [← (hkept hlive).1, ← (hkept hlive).2]
    exact hprimary hL hlive
  · rintro ⟨hprimary, hreverse⟩
    rw [← live_primary_outdated [a]] at hprimary hreverse
    rw [← live_reverse_outdated [a]] at hreverse
    refine ⟨fun hL hlive => ?_, hreverse⟩
    rw [live_primary_outdated] at hlive
    rw [(hkept hlive).1, (hkept hlive).2]
    exact hprimary hL ((live_primary_outdated [a]).trans hlive)

theorem batchReverse_cons (out : Outside ω) (env : Env) (s : State) (w : ω) (a : Bytes) (addresses : List Bytes) :
    batchReverse out env s w (a :: addresses)
      = ((batchReverse out env (reverse out env s w a).1 w addresses).1,
          (reverse out env s w a).2 :: (batchReverse out env (reverse out env s w a).1 w addresses).2) := rfl

theorem batchReverse_forget (L : Lost) (s : State) (addresses : List Bytes) :
    ((batchReverse out env (forget L s) w addresses).2 = (batchReverse out env s w addresses).2 ↔
        ∀ a ∈ addresses, Unharmed out env s w L a) ∧
      ((∀ a ∈ addresses, Unharmed out env s w L a) →
        (batchReverse out env (forget L s) w addresses).1 = forget L (batchReverse out env s w addresses).1) := by
  induction addresses generalizing s with
  | nil => exact ⟨iff_of_true rfl (List.forall_mem_nil _), fun _ => rfl⟩
  | cons a addresses ih =>
      obtain ⟨hanswer, hstate⟩ :
          ((reverse out env (forget L s) w a).2 = (reverse out env s w a).2 ↔ Unharmed out env s w L a) ∧
          (Unharmed out env s w L a → (reverse out env (forget L s) w a).1 = forget L (reverse out env s w a).1) :=
        reverse_forget L s
      have hlater : (∀ b ∈ addresses, Unharmed out env (reverse out env s w a).1 w L b) ↔
          ∀ b ∈ addresses, Unharmed out env s w L b :=
        forall₂_congr fun _ _ => unharmed_after
      rw [batchReverse_cons, batchReverse_cons, List.forall_mem_cons, ← hlater]
      constructor
      -- the later addresses are looked up in what the first query leaves on both sides
      · rw [List.cons.injEq, hanswer]
        apply and_congr_right
        intro h
        rw [hstate h]
        exact (ih (reverse out env s w a).1).1
      · rintro ⟨h, hrest⟩
        rw [hstate h]
        exact (ih (reverse out env s w a).1).2 hrest

/-- What a call answers, if it is a reverse query. -/
def answers (out : Outside ω) (env : Env) (s : State) (w : ω) : Call → Option (List (Option Bytes))
  | .reverse address        => some [(reverse out env s w address).2]
  | .batchReverse addresses => some (batchReverse out env s w addresses).2
  | _                       => none

/-- **The call does not notice what is forgotten.** -/
def Unnoticed (out : Outside ω) (env : Env) (s : State) (w : ω) (L : Lost) : Call → Prop
  | .reverse address        => Unharmed out env s w L address
  | .batchReverse addresses => ∀ a ∈ addresses, Unharmed out env s w L a
  | _                       => True

theorem answers_forget (L : Lost) (s : State) (c : Call) :
    answers out env (forget L s) w c = answers out env s w c ↔ Unnoticed out env s w L c := by
  cases c with
  | reverse address =>
      refine Iff.trans ?_ (reverse_forget L s).1
      simp only [answers, Option.some.injEq, List.cons.injEq, and_true]
  | batchReverse addresses =>
      refine Iff.trans ?_ (batchReverse_forget L s addresses).1
      simp only [answers, Option.some.injEq]
  | _ => exact iff_of_true rfl trivial

/-- **A call that does not notice leaves the same but for what is still forgotten.** -/
theorem step_unnoticed {c : Call} (h : Unnoticed out env s w L c) :
    step out w (forget L s) ⟨env, c⟩ = (step out w s ⟨env, c⟩).map (forget (L.after c)) := by
  cases c with
  | reverse address =>
      have hkept : L.after (.reverse address) = L := L.rewritten_nil
      rw [hkept]
      exact congrArg Except.ok ((reverse_forget L s).2 h)
  | batchReverse addresses =>
      have hkept : L.after (.batchReverse addresses) = L := L.rewritten_nil
      rw [hkept]
      exact congrArg Except.ok ((batchReverse_forget L s addresses).2 h)
  | _ => exact step_forget rfl

end XlmNs.Resolver
