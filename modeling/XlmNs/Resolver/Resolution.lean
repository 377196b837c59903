import XlmNs.Resolver.Forward

/-!
# `Resolver.Resolution` — what forward resolution serves, and whose record it is

`resolve` returns the record of the name itself, if there is one, without asking anybody; only a name without a
record falls back to an ancestor's, marked as a wildcard (`resolve_exact_iff`). Who owns the records changes in four
entrypoints; `Call.recordOwners` says how, and `step_recordOwner` that every committed call does just that.
-/

namespace XlmNs.Resolver

open Soroban

variable {ω : Type} {out : Outside ω} {env : Env} {s s' : State} {w : ω} {name : Bytes}

/-! ## Forward resolution -/

/-- An answer that is not a wildcard is the record of the name asked for. -/
theorem resolveFrom_exact {hops : Nat} {current : Bytes} {record : ResolutionRecord}
    (h : resolveFrom s name hops current = some (record, false)) : s.forward name = some record := by
  induction hops generalizing current with
  | zero =>
      unfold resolveFrom at h
      split at h
      · rename_i found hfound
        split at h
        · rename_i hsame
          cases h
          rw [← hsame]
          exact hfound
        · split at h <;> cases h
      · cases h
  | succ hops ih =>
      unfold resolveFrom at h
      split at h
      · rename_i found hfound
        split at h
        · rename_i hsame
          cases h
          rw [← hsame]
          exact hfound
        · split at h <;> cases h
      · dsimp only at h
        split at h
        · cases h
        · exact ih h

/-- A name's own record is found at once. -/
theorem resolveFrom_self {record : ResolutionRecord} (h : s.forward name = some record) (hops : Nat) :
    resolveFrom s name hops name = some (record, false) := by
  unfold resolveFrom
  simp [h]

/-- **A resolution that is not a wildcard** returns the stored record of the name, and always does so. -/
theorem resolve_exact_iff {record : ResolutionRecord} :
    (resolve out s w name = some record ∧ record.isWildcard = false) ↔
      validateFqdnSoroban name = .ok () ∧
        ∃ stored, s.forward name = some stored ∧ record = { stored with isWildcard := false } := by
  unfold resolve resolveWithFallback
  constructor
  · rintro ⟨h, hwild⟩
    obtain ⟨⟨stored, isWildcard⟩, hfrom, rfl⟩ := Option.map_eq_some_iff.mp h
    obtain rfl : isWildcard = false := hwild
    split at hfrom
    · cases hfrom
    · rename_i hvalid
      exact ⟨hvalid, stored, resolveFrom_exact hfrom, rfl⟩
  · rintro ⟨hvalid, stored, hstored, rfl⟩
    refine ⟨Option.map_eq_some_iff.mpr ⟨(stored, false), ?_, rfl⟩, rfl⟩
    rw [hvalid]
    exact resolveFrom_self hstored _

/-! ## Owners of records -/

/-- The owner stored in a name's record. -/
def recordOwner (s : State) : Bytes → Option Address := s.forward.view (·.owner)

theorem recordOwner_eq {record : ResolutionRecord} (h : s.forward name = some record) :
    recordOwner s name = some record.owner :=
  Store.view_eq _ h

/-- What a call makes of the owners. -/
def Call.recordOwners (owners : Bytes → Option Address) : Call → Bytes → Option Address
  | .setRecord name owner _ _             => Function.update owners name (some owner)
  | .updateOwner name _ newOwner          => Function.update owners name (some newOwner)
  | .transferRecordOwner name _ newOwner  => Function.update owners name (some newOwner)
  | .removeRecord name _                  => Function.update owners name none
  | _                                     => owners

/-- A batch keeps the owner. -/
theorem batch_owner (name : Bytes) (ops : List BatchOp) (s : State) (record : ResolutionRecord)
    (applied : UInt32) : (ops.foldl (applyOp name) (s, record, applied)).2.1.owner = record.owner := by
  apply batch_rule (I := fun _ record' => record'.owner = record.owner) name _ _ ops s record applied rfl
  · intro _ _ _ hsame
    exact hsame
  · intro _ _ _ _ hsame
    exact hsame

/-- An owner is rewritten in a record that exists. -/
theorem reassign_found {c : Call} {caller newOwner : Address}
    (hc : c = .updateOwner name caller newOwner ∨ c = .transferRecordOwner name caller newOwner)
    (h : step out w s ⟨env, c⟩ = .ok s') : ∃ owner, recordOwner s name = some owner := by
  rcases hc with rfl | rfl
  · simp only [step, updateOwner, bind_eq_ok, getRecord, okOr_eq_ok] at h
    obtain ⟨_, _, record, hrec, _⟩ := h
    exact ⟨_, recordOwner_eq hrec⟩
  · simp only [step, transferRecordOwner, bind_eq_ok, getRecord, okOr_eq_ok] at h
    obtain ⟨_, _, record, hrec, _⟩ := h
    exact ⟨_, recordOwner_eq hrec⟩

/-- A new owner in a record that is there. -/
theorem recordOwner_reassign {owner newOwner : Address} (hfound : recordOwner s name = some owner) :
    Store.view (·.owner) (Function.update s.forward name
        ((s.forward name).map (fun record => { record with owner := newOwner })))
      = Function.update (recordOwner s) name (some newOwner) := by
  have hmap : (recordOwner s name).map (fun _ => newOwner) = some newOwner := by
    rw [hfound]
    rfl
  rw [← hmap]
  exact Store.view_update_map _ _ _ (fun _ => rfl)

/-- **Every committed call does to the owners what `Call.recordOwners` says.** -/
theorem step_recordOwner {c : Call} (h : step out w s ⟨env, c⟩ = .ok s') :
    recordOwner s' = c.recordOwners (recordOwner s) := by
  unfold recordOwner
  rw [step_forward h]
  cases c with
  | setRecord name owner address nowUnix => exact Store.view_update _ _ _ _
  | removeRecord name caller => exact Store.view_update _ _ _ _
  | updateOwner name caller newOwner =>
      obtain ⟨owner, hfound⟩ := reassign_found (Or.inl rfl) h
      exact recordOwner_reassign hfound
  | transferRecordOwner name caller newOwner =>
      obtain ⟨owner, hfound⟩ := reassign_found (Or.inr rfl) h
      exact recordOwner_reassign hfound
  -- the rest rewrite a record under its owner, or none
  | setAddress name caller chain address nowUnix => exact Store.view_update_keep _ _ _ (fun _ => rfl)
  | setTextRecord name caller key value nowUnix => exact Store.view_update_keep _ _ _ (fun _ => rfl)
  | batchSet name caller ops nowUnix =>
      exact Store.view_update_keep _ _ _ (fun record => batch_owner name ops s record 0)
  | _ => rfl

/-- A record is made only under a valid name. -/
theorem setRecord_valid {owner : Address} {address : Bytes} {nowUnix : UInt64}
    (h : step out w s ⟨env, .setRecord name owner address nowUnix⟩ = .ok s') :
    validateFqdnSoroban name = .ok () := by
  simp only [step, setRecord, bind_eq_ok, requireAuth_eq_ok, mapErr_eq_ok, exists_const] at h
  obtain ⟨_, _, hvalid, _⟩ := h
  exact hvalid

/-- Every name with a record is valid. -/
def ValidNames (s : State) : Prop := ∀ n owner, recordOwner s n = some owner → validateFqdnSoroban n = .ok ()

/-- **Every committed call keeps the names valid.** -/
theorem ValidNames.step {c : Call} (hs : ValidNames s) (h : step out w s ⟨env, c⟩ = .ok s') : ValidNames s' := by
  intro n owner hn
  rw [step_recordOwner h] at hn
  have hupdate : ∀ {name : Bytes} {o : Option Address}, validateFqdnSoroban name = .ok () →
      Function.update (recordOwner s) name o n = some owner → validateFqdnSoroban n = .ok () := by
    intro name o hvalid hn
    by_cases hname : n = name
    · rw [hname]
      exact hvalid
    · rw [Function.update_of_ne hname] at hn
      exact hs n owner hn
  cases c with
  | setRecord name owner address nowUnix => exact hupdate (setRecord_valid h) hn
  | updateOwner name caller newOwner =>
      obtain ⟨_, hfound⟩ := reassign_found (Or.inl rfl) h
      exact hupdate (hs name _ hfound) hn
  | transferRecordOwner name caller newOwner =>
      obtain ⟨_, hfound⟩ := reassign_found (Or.inr rfl) h
      exact hupdate (hs name _ hfound) hn
  | removeRecord name caller =>
      have hn : Function.update (recordOwner s) name none n = some owner := hn
      by_cases hname : n = name
      · rw [hname, Function.update_self] at hn
        cases hn
      · rw [Function.update_of_ne hname] at hn
        exact hs n owner hn
  | _ => exact hs n owner hn

end XlmNs.Resolver
