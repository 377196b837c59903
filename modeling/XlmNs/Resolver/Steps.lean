import XlmNs.Resolver.Contract

/-!
# `Resolver.Steps` — what a committed resolver invocation did

`Touches name rev prim s s'` is the frame of a resolver write: forward record and wildcard flag change at
`name` only, the reverse and primary mappings at the listed addresses only, and no mapping to another name
appears. `write_spec` gives, for each of the nine writing entrypoints at once, its frame and the checks it
made: the table `Call.request` says on whose behalf and at which time a call checks ownership, `Call.slots`
which mappings it may touch.
-/

namespace XlmNs.Resolver

open Soroban

variable {ω : Type} {out : Outside ω} {env : Env} {s s' s'' : State} {w : ω}
variable {name : Bytes} {caller : Address} {nowUnix : UInt64}

/-! ## Checks -/

/-- The configured registry, if any, says that `caller` owns `name` at `nowUnix`. -/
def RegistryOwns (out : Outside ω) (s : State) (w : ω) (name : Bytes) (caller : Address)
    (nowUnix : UInt64) : Prop :=
  ∀ registry, s.registry = some registry →
    ∃ entry, out.registryResolve registry name nowUnix w = some entry ∧ entry.owner = caller

/-- The registry is asked where one is configured. -/
theorem registryOwner_ok {owner : Option Address}
    (h : registryOwner out s w name nowUnix = .ok owner) :
    (s.registry = none ∧ owner = none) ∨ ∃ registry entry, s.registry = some registry ∧
      out.registryResolve registry name nowUnix w = some entry ∧ owner = some entry.owner := by
  unfold registryOwner at h
  split at h
  · rename_i hnone
    exact Or.inl ⟨hnone, (pure_eq_ok.mp h).symm⟩
  · rename_i registry hsome
    simp only [bind_eq_ok, invoke_eq_ok, pure_eq_ok] at h
    obtain ⟨entry, hentry, rfl⟩ := h
    exact Or.inr ⟨registry, entry, hsome, hentry, rfl⟩

/-- An owner found in the registry, if it is who the call says, owns the name there. -/
theorem registryOwns_of_ok {owner : Option Address}
    (h : registryOwner out s w name nowUnix = .ok owner) (hsame : ∀ a, owner = some a → a = caller) :
    RegistryOwns out s w name caller nowUnix := by
  intro registry hregistry
  rcases registryOwner_ok h with ⟨hnone, _⟩ | ⟨registry', entry, hsome, hentry, rfl⟩
  · cases hnone.symm.trans hregistry
  · obtain rfl := Option.some.inj (hsome.symm.trans hregistry)
    exact ⟨entry, hentry, hsame entry.owner rfl⟩

/-- The caller is the owner the registry gives, where one is configured. -/
theorem assertOwner_ok {record : ResolutionRecord} {u : Unit}
    (h : assertOwner out s w name record caller nowUnix = .ok u) :
    RegistryOwns out s w name caller nowUnix := by
  simp only [assertOwner, bind_eq_ok] at h
  obtain ⟨owner, howner, h⟩ := h
  refine registryOwns_of_ok howner ?_
  rintro a rfl
  exact require_eq_ok.mp h

/-- **With a registry configured, `set_record` asks nobody else.** -/
theorem setRecord_accepted_iff {registry owner : Address} {address : Bytes} (hreg : s.registry = some registry) :
    (∃ s', setRecord out env s w name owner address nowUnix = .ok s') ↔
      env.Authorises owner ∧ validateFqdnSoroban name = .ok () ∧
      ∃ entry, out.registryResolve registry name nowUnix w = some entry ∧ entry.owner = owner := by
  constructor
  · rintro ⟨s', h⟩
    simp only [setRecord, bind_eq_ok, requireAuth_eq_ok, mapErr_eq_ok, require_eq_ok, exists_const] at h
    obtain ⟨hauth, ⟨⟩, hvalid, found, hfound, hsame, _⟩ := h
    exact ⟨hauth, hvalid, registryOwns_of_ok hfound hsame registry hreg⟩
  · rintro ⟨hauth, hvalid, entry, hentry, rfl⟩
    have hfound : registryOwner out s w name nowUnix = .ok (some entry.owner) := by
      simp only [registryOwner, hreg, hentry, invoke, bind_eq_ok, pure_eq_ok]
      exact ⟨entry, rfl, rfl⟩
    have hrest : ∀ existing ∈ s.forward name, some entry.owner = none → existing.owner = entry.owner := by
      rintro _ _ ⟨⟩
    simp only [setRecord, bind_eq_ok, requireAuth_eq_ok, mapErr_eq_ok, require_eq_ok, exists_const]
    refine ⟨_, hauth, (), hvalid, some entry.owner, hfound, ?_, hrest, rfl⟩
    rintro a ⟨⟩
    rfl

/-! ## Frames -/

/-- **A write for `name`** touches forward record and wildcard flag of `name`, reverse mappings in `rev` and
    primary mappings in `prim`, and adds no mapping to any other name. -/
structure Touches (name : Bytes) (rev prim : List Bytes) (s s' : State) : Prop where
  forward  : ∀ n, n ≠ name → s'.forward n = s.forward n
  wildcard : ∀ n, n ≠ name → s'.wildcard n = s.wildcard n
  reverse  : ∀ a, a ∉ rev → s'.reverse a = s.reverse a
  primary  : ∀ a, a ∉ prim → s'.primary a = s.primary a
  reverse_to : ∀ a n, s'.reverse a = some n → s.reverse a = some n ∨ n = name
  primary_to : ∀ a n, s'.primary a = some n → s.primary a = some n ∨ n = name
  registry : s'.registry = s.registry

theorem Touches.refl (name : Bytes) (rev prim : List Bytes) (s : State) : Touches name rev prim s s where
  forward _ _      := rfl
  wildcard _ _     := rfl
  reverse _ _      := rfl
  primary _ _      := rfl
  reverse_to _ _ h := Or.inl h
  primary_to _ _ h := Or.inl h
  registry         := rfl

/-- What two writes touch together. -/
theorem Touches.trans {rev₁ rev₂ prim₁ prim₂ : List Bytes} (h₁ : Touches name rev₁ prim₁ s s')
    (h₂ : Touches name rev₂ prim₂ s' s'') : Touches name (rev₁ ++ rev₂) (prim₁ ++ prim₂) s s'' where
  forward n hn  := (h₂.forward n hn).trans (h₁.forward n hn)
  wildcard n hn := (h₂.wildcard n hn).trans (h₁.wildcard n hn)
  reverse a ha  := by
    rw [List.mem_append, not_or] at ha
    exact (h₂.reverse a ha.2).trans (h₁.reverse a ha.1)
  primary a ha  := by
    rw [List.mem_append, not_or] at ha
    exact (h₂.primary a ha.2).trans (h₁.primary a ha.1)
  reverse_to a n h := by
    rcases h₂.reverse_to a n h with h' | h'
    · exact h₁.reverse_to a n h'
    · exact Or.inr h'
  primary_to a n h := by
    rcases h₂.primary_to a n h with h' | h'
    · exact h₁.primary_to a n h'
    · exact Or.inr h'
  registry := h₂.registry.trans h₁.registry

/-- Writing the record of a name touches the name only. -/
theorem Touches.putRecord (name : Bytes) (record : ResolutionRecord) (s : State) :
    Touches name [] [] s (putRecord s name record) :=
  { Touches.refl name [] [] s with forward := fun _ hn => Store.set_ne _ _ hn }

/-- Writing a reverse mapping touches its address. -/
theorem Touches.setReverse (name address : Bytes) (s : State) :
    Touches name [address] [] s (setReverse s address name) where
  forward _ _     := rfl
  wildcard _ _    := rfl
  reverse a ha    := Store.set_ne _ _ (List.ne_of_not_mem_cons ha)
  primary _ _     := rfl
  reverse_to a n h := by
    rcases Store.set_eq_some.mp h with ⟨_, hname⟩ | ⟨_, hbefore⟩
    · exact Or.inr hname.symm
    · exact Or.inl hbefore
  primary_to _ _ h := Or.inl h
  registry := rfl

/-- Writing a primary mapping touches its address. -/
theorem Touches.setPrimary (name address : Bytes) (s : State) :
    Touches name [] [address] s { s with primary := s.primary.set address name } where
  forward _ _      := rfl
  wildcard _ _     := rfl
  reverse _ _      := rfl
  primary _ ha     := Store.set_ne _ _ (List.ne_of_not_mem_cons ha)
  reverse_to _ _ h := Or.inl h
  primary_to a n h := by
    rcases Store.set_eq_some.mp h with ⟨_, hname⟩ | ⟨_, hbefore⟩
    · exact Or.inr hname.symm
    · exact Or.inl hbefore
  registry := rfl

/-- Removing both mappings of an address touches them. -/
theorem Touches.removeMappings (name address : Bytes) (s : State) :
    Touches name [address] [address] s (removeMappings s address) where
  forward _ _      := rfl
  wildcard _ _     := rfl
  reverse _ ha     := Store.remove_ne _ (List.ne_of_not_mem_cons ha)
  primary _ ha     := Store.remove_ne _ (List.ne_of_not_mem_cons ha)
  reverse_to _ _ h := Or.inl (Store.remove_eq_some.mp h).2
  primary_to _ _ h := Or.inl (Store.remove_eq_some.mp h).2
  registry := rfl

/-- The mappings of a record's address go, if it has one. -/
theorem removeDefault_touches (name : Bytes) (address : Option Bytes) (s : State) :
    Touches name address.toList address.toList s
      (match address with
        | some stellarAddr => removeMappings s stellarAddr
        | none             => s) := by
  cases address with
  | none => exact Touches.refl _ _ _ s
  | some old => exact Touches.removeMappings name old s

/-- The default-chain address a write of `address` replaces. -/
def replaced (old : Option Bytes) (address : Bytes) : List Bytes := old.toList.filter (· ≠ address)

/-- Unlinking the old address touches its mappings, if it is another one. -/
theorem Touches.unlinkOld (name : Bytes) (record : ResolutionRecord) (address : Bytes) (s : State) :
    Touches name (replaced record.defaultAddress address) (replaced record.defaultAddress address) s
      (unlinkOld s record address) := by
  unfold Resolver.unlinkOld
  split
  · rename_i old hold
    split
    · rename_i hne
      simpa [replaced, hold, hne] using Touches.removeMappings name old s
    · exact Touches.refl _ _ _ s
  · exact Touches.refl _ _ _ s

/-! ## The writing entrypoints -/

/-- On whose behalf a call asks to write which name, and at which time it checks the ownership. -/
structure Request where
  name   : Bytes
  caller : Address
  clock  : UInt64

/-- The nine writing entrypoints. Those without a time argument check at 0. -/
def Call.request : Call → Option Request
  | .setRecord name owner _ nowUnix => some ⟨name, owner, nowUnix⟩
  | .setAddress name caller _ _ nowUnix => some ⟨name, caller, nowUnix⟩
  | .setTextRecord name caller _ _ nowUnix => some ⟨name, caller, nowUnix⟩
  | .setPrimaryName _ caller name => some ⟨name, caller, 0⟩
  | .removeRecord name caller => some ⟨name, caller, 0⟩
  | .updateOwner name caller _ => some ⟨name, caller, 0⟩
  | .transferRecordOwner name caller _ => some ⟨name, caller, 0⟩
  | .setWildcardResolution name caller _ nowUnix => some ⟨name, caller, nowUnix⟩
  | .batchSet name caller _ nowUnix => some ⟨name, caller, nowUnix⟩
  | _ => none

/-- The call does not require its caller's signature. -/
def Call.isUnsigned : Call → Bool
  | .setWildcardResolution .. => true
  | _ => false

/-- The call does not ask the registry. -/
def Call.skipsRegistry : Call → Bool
  | .transferRecordOwner .. => true
  | _ => false

/-- The default-chain addresses a batch replaces, and those it writes. -/
def batchSlots : Option Bytes → List BatchOp → List Bytes × List Bytes
  | _, [] => ([], [])
  | old, .setAddress address :: ops =>
      let (rs, ws) := batchSlots (some address) ops
      (replaced old address ++ rs, address :: ws)
  | old, .setText _ _ :: ops => batchSlots old ops

/-- The addresses whose reverse mapping, and those whose primary mapping, a write may touch. -/
def Call.slots (s : State) : Call → List Bytes × List Bytes
  | .setRecord name _ address _ =>
      let gone := replaced ((s.forward name).bind ResolutionRecord.defaultAddress) address
      (gone ++ [address], gone)
  | .setAddress name _ chain address _ =>
      let gone := replaced ((s.forward name).bind ResolutionRecord.defaultAddress) address
      if chain = defaultChain then (gone ++ [address], gone) else ([], [])
  | .setPrimaryName address _ _ => ([], [address])
  | .removeRecord name _ =>
      let gone := ((s.forward name).bind ResolutionRecord.defaultAddress).toList
      (gone, gone)
  | .batchSet name _ ops _ =>
      let (gone, written) := batchSlots ((s.forward name).bind ResolutionRecord.defaultAddress) ops
      (gone ++ written, gone)
  | _ => ([], [])

/-- More may be allowed. -/
theorem Touches.weaken {rev rev' prim prim' : List Bytes} (h : Touches name rev prim s s')
    (hrev : rev ⊆ rev') (hprim : prim ⊆ prim') : Touches name rev' prim' s s' :=
  { h with
    reverse := fun a ha => h.reverse a (fun ha' => ha (hrev ha'))
    primary := fun a ha => h.primary a (fun ha' => ha (hprim ha')) }

/-- The address on the default chain is the one written last. -/
theorem defaultAddress_insert (addresses : StringMap) (record : ResolutionRecord) (address : Bytes) :
    ({ record with addresses := addresses.insert defaultChain address } :
      ResolutionRecord).defaultAddress = some address := by
  simp [ResolutionRecord.defaultAddress]

/-- Linking a name to a new default-chain address: the old one is unlinked first. -/
theorem Touches.relink (name : Bytes) (record : ResolutionRecord) (address : Bytes) (s : State) :
    Touches name (replaced record.defaultAddress address ++ [address])
      (replaced record.defaultAddress address) s
      (Resolver.setReverse (Resolver.unlinkOld s record address) address name) := by
  have h := (Touches.unlinkOld name record address s).trans
    (Touches.setReverse name address (Resolver.unlinkOld s record address))
  rwa [List.append_nil] at h

/-- **The loop of `batch_set` touches the addresses it replaces and the ones it writes.** -/
theorem Touches.batch (name : Bytes) (ops : List BatchOp) (s : State) (record : ResolutionRecord)
    (applied : UInt32) :
    Touches name
      ((batchSlots record.defaultAddress ops).1 ++ (batchSlots record.defaultAddress ops).2)
      (batchSlots record.defaultAddress ops).1 s
      (ops.foldl (applyOp name) (s, record, applied)).1 := by
  induction ops generalizing s record applied with
  | nil => exact Touches.refl _ _ _ s
  | cons op ops ih =>
      cases op with
      | setAddress address =>
          let record' : ResolutionRecord :=
            { record with addresses := record.addresses.insert defaultChain address }
          have hrecord' : record'.defaultAddress = some address :=
            defaultAddress_insert record.addresses record address
          have hrest := ih (Resolver.setReverse (Resolver.unlinkOld s record address) address name)
            record' (applied + 1)
          rw [hrecord'] at hrest
          refine ((Touches.relink name record address s).trans hrest).weaken ?_ ?_
          · intro a ha
            simp only [batchSlots, List.mem_append, List.mem_cons, List.not_mem_nil, or_false] at ha ⊢
            tauto
          · intro a ha
            exact ha
      | setText key value =>
          rw [List.foldl_cons]
          unfold applyOp
          dsimp only
          split
          · exact ih s record applied
          · exact ih s { record with textRecords := record.textRecords.insert key value } (applied + 1)

/-- **Every writing entrypoint, at once**: what it touches, and which checks it made. -/
theorem write_spec {c : Call} {q : Request} (h : step out w s ⟨env, c⟩ = .ok s')
    (hq : c.request = some q) :
    Touches q.name (c.slots s).1 (c.slots s).2 s s' ∧
      (c.isUnsigned = false → env.Authorises q.caller) ∧
      (c.skipsRegistry = false → RegistryOwns out s w q.name q.caller q.clock) := by
  cases c with
  | setRecord name owner address nowUnix =>
      obtain rfl := Option.some.inj hq
      simp only [step, setRecord, bind_eq_ok, requireAuth_eq_ok, mapErr_eq_ok, require_eq_ok, pure_eq_ok,
        exists_const] at h
      obtain ⟨ha, _, _, owner', howner, hsame, _, rfl⟩ := h
      refine ⟨?_, fun _ => ha, fun _ => registryOwns_of_ok howner hsame⟩
      simp only [Call.slots]
      cases hrec : s.forward name with
      | none =>
          exact ((Touches.putRecord name _ s).trans (Touches.setReverse name address _)).weaken
            (by simp) (by simp)
      | some existing =>
          exact ((Touches.unlinkOld name existing address s).trans
            ((Touches.putRecord name _ _).trans (Touches.setReverse name address _))).weaken
            (by simp) (by simp)
  | setAddress name caller chain address nowUnix =>
      obtain rfl := Option.some.inj hq
      simp only [step, setAddress, bind_eq_ok, requireAuth_eq_ok, getRecord, okOr_eq_ok, pure_eq_ok,
        exists_const] at h
      obtain ⟨ha, record, hrec, _, howns, rfl⟩ := h
      refine ⟨?_, fun _ => ha, fun _ => assertOwner_ok howns⟩
      simp only [Call.slots, hrec, Option.bind_some]
      split
      · exact ((Touches.relink name record address s).trans (Touches.putRecord name _ _)).weaken
          (by simp) (by simp)
      · exact Touches.putRecord name _ s
  | setTextRecord name caller key value nowUnix =>
      obtain rfl := Option.some.inj hq
      simp only [step, setTextRecord, bind_eq_ok, requireAuth_eq_ok, mapErr_eq_ok, require_eq_ok, getRecord,
        okOr_eq_ok, pure_eq_ok, exists_const] at h
      obtain ⟨ha, _, _, _, record, _, _, howns, _, rfl⟩ := h
      exact ⟨Touches.putRecord name _ s, fun _ => ha, fun _ => assertOwner_ok howns⟩
  | setPrimaryName address caller name =>
      obtain rfl := Option.some.inj hq
      simp only [step, setPrimaryName, bind_eq_ok, requireAuth_eq_ok, require_eq_ok, getRecord,
        okOr_eq_ok, pure_eq_ok, exists_const] at h
      obtain ⟨ha, record, _, _, howns, _, rfl⟩ := h
      exact ⟨Touches.setPrimary name address s, fun _ => ha, fun _ => assertOwner_ok howns⟩
  | removeRecord name caller =>
      obtain rfl := Option.some.inj hq
      simp only [step, removeRecord, bind_eq_ok, requireAuth_eq_ok, getRecord, okOr_eq_ok, pure_eq_ok,
        exists_const] at h
      obtain ⟨ha, record, hrec, _, howns, rfl⟩ := h
      refine ⟨?_, fun _ => ha, fun _ => assertOwner_ok howns⟩
      have hclean := removeDefault_touches name record.defaultAddress s
      simp only [Call.slots, hrec, Option.bind_some]
      exact { hclean with
        forward := fun n hn => (Store.remove_ne _ hn).trans (hclean.forward n hn)
        wildcard := fun n hn => (Store.remove_ne _ hn).trans (hclean.wildcard n hn) }
  | updateOwner name caller newOwner =>
      obtain rfl := Option.some.inj hq
      simp only [step, updateOwner, bind_eq_ok, requireAuth_eq_ok, getRecord, okOr_eq_ok, pure_eq_ok,
        exists_const] at h
      obtain ⟨ha, record, _, _, howns, rfl⟩ := h
      exact ⟨Touches.putRecord name _ s, fun _ => ha, fun _ => assertOwner_ok howns⟩
  | transferRecordOwner name caller newOwner =>
      obtain rfl := Option.some.inj hq
      simp only [step, transferRecordOwner, bind_eq_ok, requireAuth_eq_ok, getRecord, okOr_eq_ok,
        require_eq_ok, pure_eq_ok, exists_const] at h
      obtain ⟨ha, record, _, _, rfl⟩ := h
      exact ⟨Touches.putRecord name _ s, fun _ => ha, fun hskip => by cases hskip⟩
  | setWildcardResolution name caller enabled nowUnix =>
      obtain rfl := Option.some.inj hq
      simp only [step, setWildcardResolution, bind_eq_ok, mapErr_eq_ok, getRecord, okOr_eq_ok,
        pure_eq_ok] at h
      obtain ⟨_, _, record, _, _, howns, rfl⟩ := h
      refine ⟨?_, fun hsigned => (by cases hsigned), fun _ => assertOwner_ok howns⟩
      exact { Touches.refl name [] [] s with wildcard := fun _ hn => Store.set_ne _ _ hn }
  | batchSet name caller ops nowUnix =>
      obtain rfl := Option.some.inj hq
      simp only [step, batchSet, bind_eq_ok, mapErr_eq_ok, requireAuth_eq_ok, require_eq_ok, getRecord,
        okOr_eq_ok, pure_eq_ok, exists_const] at h
      obtain ⟨_, ⟨_, _, ha, _, record, hrec, _, howns, rfl⟩, rfl⟩ := h
      refine ⟨?_, fun _ => ha, fun _ => assertOwner_ok howns⟩
      simp only [Call.slots, hrec, Option.bind_some]
      exact ((Touches.batch name ops s record 0).trans (Touches.putRecord name _ _)).weaken
        (by simp) (by simp)
  | _ => cases hq

/-! ## The configured registry -/

theorem reverse_registry (out : Outside ω) (env : Env) (s : State) (w : ω) (address : Bytes) :
    (reverse out env s w address).1.registry = s.registry := by
  have hthrough : ∀ s mapping, (reverseThrough out env s w mapping address).1.registry = s.registry := by
    intro s mapping
    unfold reverseThrough
    split
    · rfl
    · split <;> rfl
  have hfirst := hthrough s s.primary
  unfold reverse
  split
  · rename_i s₁ name h
    rw [h] at hfirst
    exact hfirst
  · rename_i s₁ h
    rw [h] at hfirst
    exact (hthrough s₁ s₁.reverse).trans hfirst

theorem batchReverse_registry (out : Outside ω) (env : Env) (s : State) (w : ω)
    (addresses : List Bytes) : (batchReverse out env s w addresses).1.registry = s.registry := by
  induction addresses generalizing s with
  | nil => rfl
  | cons address addresses ih =>
      exact (ih (reverse out env s w address).1).trans (reverse_registry out env s w address)

/-- **A configured registry stays configured.** -/
theorem step_registry {t : Tx Call} {registry : Address} (h : step out w s t = .ok s')
    (hs : s.registry = some registry) : s'.registry = some registry := by
  obtain ⟨env, c⟩ := t
  cases hq : c.request with
  | some q => exact (write_spec h hq).1.registry.trans hs
  | none =>
      cases c with
      | initializeContract registry' admin =>
          simp only [step, initializeContract, bind_eq_ok, require_eq_ok] at h
          obtain ⟨_, hnone, _⟩ := h
          cases hs.symm.trans hnone
      | setSubdomainContract subdomainContract =>
          simp only [step, setSubdomainContract, bind_eq_ok, pure_eq_ok] at h
          obtain ⟨_, _, _, _, rfl⟩ := h
          exact hs
      | upgrade migrationData =>
          simp only [step, upgrade, upgradeStoring_eq_ok] at h
          obtain ⟨_, rfl⟩ := h
          exact hs
      | clearReverseRecord name previousOwner =>
          simp only [step, clearReverseRecord, bind_eq_ok, pure_eq_ok] at h
          obtain ⟨_, _, _, _, rfl⟩ := h
          exact hs
      | reverse address =>
          obtain rfl := pure_eq_ok.mp h
          exact (reverse_registry out env s w address).trans hs
      | batchReverse addresses =>
          obtain rfl := pure_eq_ok.mp h
          exact (batchReverse_registry out env s w addresses).trans hs
      | _ => cases hq

end XlmNs.Resolver
