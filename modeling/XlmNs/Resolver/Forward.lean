import XlmNs.Resolver.Mappings

/-!
# `Resolver.Forward` — what a committed call makes of the forward records

Every call writes the forward record of one name at most. `Call.rewrites` gives that name and its new record as a
function of the storage before the call; `step_forward` says this is what a committed call writes.
-/

namespace XlmNs.Resolver

open Soroban

variable {ω : Type} {out : Outside ω} {env : Env} {s s' : State} {w : ω} {name : Bytes}

/-- The record `set_record` writes. -/
def freshRecord (s : State) (name : Bytes) (owner : Address) (address : Bytes) (nowUnix : UInt64) :
    ResolutionRecord where
  owner       := owner
  addresses   := (((s.forward name).map ResolutionRecord.addresses).getD ∅).insert defaultChain address
  textRecords := ((s.forward name).map ResolutionRecord.textRecords).getD ∅
  updatedAt   := nowUnix
  isWildcard  := false

/-- The record a batch leaves. -/
def batchedRecord (s : State) (name : Bytes) (record : ResolutionRecord) (ops : List BatchOp)
    (nowUnix : UInt64) : ResolutionRecord :=
  { (ops.foldl (applyOp name) (s, record, 0)).2.1 with updatedAt := nowUnix }

/-- The name whose record a call writes, and the record. -/
def Call.rewrites (s : State) : Call → Option (Bytes × Option ResolutionRecord)
  | .setRecord name owner address nowUnix => some (name, some (freshRecord s name owner address nowUnix))
  | .setAddress name _ chain address nowUnix =>
      some (name, (s.forward name).map (fun record =>
        { record with addresses := record.addresses.insert chain address, updatedAt := nowUnix }))
  | .setTextRecord name _ key value nowUnix =>
      some (name, (s.forward name).map (fun record =>
        { record with textRecords := record.textRecords.insert key value, updatedAt := nowUnix }))
  | .removeRecord name _ => some (name, none)
  | .updateOwner name _ newOwner =>
      some (name, (s.forward name).map (fun record => { record with owner := newOwner }))
  | .transferRecordOwner name _ newOwner =>
      some (name, (s.forward name).map (fun record => { record with owner := newOwner }))
  | .batchSet name _ ops nowUnix =>
      some (name, (s.forward name).map (fun record => batchedRecord s name record ops nowUnix))
  | _ => none

/-- What a call makes of the forward records. -/
def Call.forward (s : State) (c : Call) : Store Bytes ResolutionRecord :=
  match c.rewrites s with
  | some (name, record) => Function.update s.forward name record
  | none                => s.forward

/-- A record that is there is written over. -/
theorem forward_put {s₁ : State} {record record' : ResolutionRecord} {f : ResolutionRecord → ResolutionRecord}
    (hrecord : s.forward name = some record) (hsame : s₁.forward = s.forward) (hf : f record = record') :
    (putRecord s₁ name record').forward = Function.update s.forward name ((s.forward name).map f) := by
  rw [hrecord, Option.map_some, hf]
  show s₁.forward.set name record' = _
  rw [hsame]
  rfl

/-- The loop of a batch writes no record. -/
theorem forward_batch (name : Bytes) (ops : List BatchOp) (s : State) (record : ResolutionRecord)
    (applied : UInt32) : (ops.foldl (applyOp name) (s, record, applied)).1.forward = s.forward := by
  -- the storage passed along changes in its mappings only
  apply batch_rule (I := fun s' _ => s'.forward = s.forward) name _ _ ops s record applied rfl
  · intro s' record' address hsame
    exact (unlinked_unlinkOld s' record' address).forward.trans hsame
  · intro _ _ _ _ hsame
    exact hsame

/-- **Every committed call writes the record `Call.rewrites` says, and no other.** -/
theorem step_forward {c : Call} (h : step out w s ⟨env, c⟩ = .ok s') : s'.forward = c.forward s := by
  cases c with
  | setRecord name owner address nowUnix =>
      simp only [step, setRecord, bind_eq_ok, requireAuth_eq_ok, mapErr_eq_ok, require_eq_ok, pure_eq_ok,
        exists_const] at h
      obtain ⟨_, _, _, _, _, _, _, rfl⟩ := h
      -- unlinking an old address leaves the records
      refine congrArg (fun m => Store.set m name (freshRecord s name owner address nowUnix)) ?_
      split
      · exact (unlinked_unlinkOld s _ address).forward
      · rfl
  | setAddress name caller chain address nowUnix =>
      simp only [step, setAddress, bind_eq_ok, requireAuth_eq_ok, getRecord, okOr_eq_ok, pure_eq_ok,
        exists_const] at h
      obtain ⟨_, record, hrecord, _, _, rfl⟩ := h
      refine forward_put hrecord ?_ rfl
      split
      · exact (unlinked_unlinkOld s record address).forward
      · rfl
  | setTextRecord name caller key value nowUnix =>
      simp only [step, setTextRecord, bind_eq_ok, requireAuth_eq_ok, mapErr_eq_ok, require_eq_ok, getRecord,
        okOr_eq_ok, pure_eq_ok, exists_const] at h
      obtain ⟨_, _, _, _, record, hrecord, _, _, _, rfl⟩ := h
      exact forward_put hrecord rfl rfl
  | batchSet name caller ops nowUnix =>
      simp only [step, batchSet, bind_eq_ok, mapErr_eq_ok, requireAuth_eq_ok, require_eq_ok, getRecord,
        okOr_eq_ok, pure_eq_ok, exists_const] at h
      obtain ⟨_, ⟨_, _, _, _, record, hrecord, _, _, rfl⟩, rfl⟩ := h
      exact forward_put hrecord (forward_batch name ops s record 0) rfl
  | updateOwner name caller newOwner =>
      simp only [step, updateOwner, bind_eq_ok, requireAuth_eq_ok, getRecord, okOr_eq_ok, pure_eq_ok,
        exists_const] at h
      obtain ⟨_, record, hrecord, _, _, rfl⟩ := h
      exact forward_put hrecord rfl rfl
  | transferRecordOwner name caller newOwner =>
      simp only [step, transferRecordOwner, bind_eq_ok, requireAuth_eq_ok, getRecord, okOr_eq_ok,
        require_eq_ok, pure_eq_ok, exists_const] at h
      obtain ⟨_, record, hrecord, _, rfl⟩ := h
      exact forward_put hrecord rfl rfl
  | removeRecord name caller =>
      simp only [step, removeRecord, bind_eq_ok, requireAuth_eq_ok, getRecord, okOr_eq_ok, pure_eq_ok,
        exists_const] at h
      obtain ⟨_, record, _, _, _, rfl⟩ := h
      refine congrArg (Store.remove · name) ?_
      split <;> rfl
  | setPrimaryName address caller name =>
      simp only [step, setPrimaryName, bind_eq_ok, pure_eq_ok] at h
      obtain ⟨_, _, _, _, _, _, _, _, rfl⟩ := h
      rfl
  | setWildcardResolution name caller enabled nowUnix =>
      simp only [step, setWildcardResolution, bind_eq_ok, pure_eq_ok] at h
      obtain ⟨_, _, _, _, _, _, rfl⟩ := h
      rfl
  | initializeContract registry admin =>
      simp only [step, initializeContract, bind_eq_ok, pure_eq_ok] at h
      obtain ⟨_, _, rfl⟩ := h
      rfl
  | setSubdomainContract subdomainContract =>
      simp only [step, setSubdomainContract, bind_eq_ok, pure_eq_ok] at h
      obtain ⟨_, _, _, _, rfl⟩ := h
      rfl
  | upgrade migrationData =>
      simp only [step, upgrade, upgradeStoring_eq_ok] at h
      obtain ⟨_, rfl⟩ := h
      rfl
  | clearReverseRecord name previousOwner =>
      simp only [step, clearReverseRecord, bind_eq_ok, pure_eq_ok] at h
      obtain ⟨_, _, _, _, rfl⟩ := h
      rfl
  | reverse address =>
      obtain rfl := pure_eq_ok.mp h
      exact (drops_reverse out env s w address).forward
  | batchReverse addresses =>
      obtain rfl := pure_eq_ok.mp h
      exact (drops_batchReverse out env s w addresses).forward

end XlmNs.Resolver
