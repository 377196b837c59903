import XlmNs.Registry.Contract

/-!
# `Registry.Steps` — what a committed registry invocation did

Reads the registry's entrypoints backwards. First one `…_eq_ok` lemma per check and per entrypoint that the
later proofs need in full: the entrypoint returned `Ok` iff its guards held, and then the storage is exactly
this. Then `Change`, which classifies every committed invocation by what it did to the entries and the owner
index and under whose authority; `step_change` derives it once, and the invariants of `Registry.Correctness`
are case analyses over it. `step_world` does the same for the world outside.
-/

namespace XlmNs.Registry

open Soroban

variable {ω : Type} {out : Outside ω} {self : Address} {env : Env} {s s' : State} {w w' : ω}
variable {name : Bytes} {nowUnix : UInt64}

/-! ## Checks -/

/-- No lock of `name` reaches `nowUnix`. -/
def UnlockedAt (s : State) (name : Bytes) (nowUnix : UInt64) : Prop :=
  ∀ lock, s.lock name = some lock → lock.lockedUntil < nowUnix

/-- A name that is not locked is let through, and its lock, run out or absent, is gone. -/
theorem ensureNameUnlocked_eq_ok :
    ensureNameUnlocked s name nowUnix = .ok s' ↔ UnlockedAt s name nowUnix ∧ s' = removeLock s name := by
  unfold ensureNameUnlocked UnlockedAt
  cases hl : s.lock name with
  | none =>
      -- deleting an absent lock changes nothing, so both cases have one storage
      have hsame : removeLock s name = s := by simp only [removeLock, Store.remove_absent hl]
      simp only [pure_eq_ok, hsame]
      constructor
      · rintro rfl
        refine ⟨?_, rfl⟩
        intro lock hlock
        cases hlock
      · rintro ⟨_, rfl⟩
        rfl
  | some lock =>
      simp only [bind_eq_ok, require_eq_ok, exists_const, pure_eq_ok, Option.some.injEq, forall_eq']
      exact and_congr_right (fun _ => eq_comm)

theorem getEntry_eq_ok {entry : RegistryEntry} :
    getEntry s name = .ok entry ↔ s.entry name = some entry := by
  simp [getEntry]

/-- The entry is active, and the caller owns it. -/
theorem ensureOwner_eq_ok {entry : RegistryEntry} {caller : Address} {u : Unit} :
    ensureOwner entry caller nowUnix = .ok u ↔ entry.isActiveAt nowUnix ∧ entry.owner = caller := by
  simp only [ensureOwner, bind_eq_ok, require_eq_ok, exists_const]

theorem validateMetadata_eq_ok {metadataUri : Option Bytes} {u : Unit} :
    validateMetadata metadataUri = .ok u ↔
      ∀ value ∈ metadataUri, value.length ≤ maxMetadataUriLength := by
  simp only [validateMetadata, require_eq_ok]

/-- The two ends are in order, and the first is not past. -/
theorem validateLifecycleTimestamps_eq_ok {expiresAt gracePeriodEndsAt : UInt64} {u : Unit} :
    validateLifecycleTimestamps nowUnix expiresAt gracePeriodEndsAt = .ok u ↔
      nowUnix ≤ expiresAt ∧ expiresAt ≤ gracePeriodEndsAt := by
  simp only [validateLifecycleTimestamps, bind_eq_ok, require_eq_ok, exists_const]
  exact Iff.rfl

/-- What resolves is an active entry. -/
theorem resolve_eq_ok {entry : RegistryEntry} :
    resolve s name nowUnix = .ok entry ↔
      validateFqdnSoroban name = .ok () ∧ s.entry name = some entry ∧ entry.isActiveAt nowUnix := by
  simp only [resolve, bind_eq_ok, mapErr_eq_ok, getEntry_eq_ok, require_eq_ok, pure_eq_ok, exists_const]
  constructor
  · rintro ⟨⟨⟩, hv, e, he, ha, rfl⟩
    exact ⟨hv, he, ha⟩
  · rintro ⟨hv, he, ha⟩
    exact ⟨(), hv, entry, he, ha, rfl⟩

/-- A nested NFT call depends on the registry's storage through the configured address only. -/
theorem callNft_congr {s₁ s₂ : State} (h : s₁.nftContract = s₂.nftContract) (call : NftCall) (w : ω) :
    callNft out self env s₁ call w = callNft out self env s₂ call w := by
  simp only [callNft, h]

/-! ## Entrypoints -/

/-- **What `register` clears away**: nothing, or the entry of a claimable name, with its token. -/
theorem release_eq_ok :
    release out self env s w name nowUnix = .ok (s', w') ↔
      (s.entry name = none ∧ s' = s ∧ w' = w) ∨
      ∃ e, s.entry name = some e ∧ ¬ e.isActiveAt nowUnix ∧ e.isClaimableAt nowUnix ∧
        s' = removeEntry (removeOwnerName s e.owner name) name ∧
        callNft out self env s (.burn name) w = .ok w' := by
  unfold release
  cases he : s.entry name with
  | none =>
      simp only [pure_eq_ok, Prod.mk.injEq, true_and, reduceCtorEq, false_and, exists_false,
        or_false]
      exact and_congr eq_comm eq_comm
  | some e =>
      simp only [bind_eq_ok, require_eq_ok, exists_const, pure_eq_ok, Prod.mk.injEq,
        reduceCtorEq, false_and, false_or, Option.some.injEq, exists_eq_left']
      constructor
      · rintro ⟨ha, hc, w₁, hn, rfl, rfl⟩
        exact ⟨ha, hc, rfl, hn⟩
      · rintro ⟨ha, hc, rfl, hn⟩
        exact ⟨ha, hc, w', hn, rfl, rfl⟩

/-- **A committed `register`**: what it asked for, and what it wrote. -/
theorem register_eq_ok {owner : Address} {targetAddress metadataUri : Option Bytes}
    {expiresAt gracePeriodEndsAt : UInt64} :
    register out self env s w name owner targetAddress metadataUri nowUnix expiresAt gracePeriodEndsAt
        = .ok (s', w') ↔
      env.Authorises owner ∧ validateFqdnSoroban name = .ok () ∧ UnlockedAt s name nowUnix ∧
      (∀ value ∈ metadataUri, value.length ≤ maxMetadataUriLength) ∧
      nowUnix ≤ expiresAt ∧ expiresAt ≤ gracePeriodEndsAt ∧
      ∃ s₁ w₁, release out self env (removeLock s name) w name nowUnix = .ok (s₁, w₁) ∧
        s' = addOwnerName (putEntry s₁ name
          (freshEntry name owner targetAddress metadataUri nowUnix expiresAt gracePeriodEndsAt)) owner
          name ∧
        callNft out self env s₁ (.mint name owner metadataUri expiresAt) w₁ = .ok w' := by
  simp only [register, bind_eq_ok, requireAuth_eq_ok, mapErr_eq_ok, ensureNameUnlocked_eq_ok,
    validateMetadata_eq_ok, validateLifecycleTimestamps_eq_ok, pure_eq_ok, Prod.mk.injEq, exists_const]
  constructor
  · rintro ⟨ha, ⟨⟩, hv, _, ⟨hl, rfl⟩, hm, ⟨h1, h2⟩, ⟨s₁, w₁⟩, hr, w₂, hn, rfl, rfl⟩
    exact ⟨ha, hv, hl, hm, h1, h2, s₁, w₁, hr, rfl, hn⟩
  · rintro ⟨ha, hv, hl, hm, h1, h2, s₁, w₁, hr, rfl, hn⟩
    exact ⟨ha, (), hv, _, ⟨hl, rfl⟩, hm, ⟨h1, h2⟩, (s₁, w₁), hr, w', hn, rfl, rfl⟩

/-- **A committed `transfer`**: the caller owned the active name, and it moved. -/
theorem transfer_eq_ok {caller newOwner : Address} :
    transfer out self env s w name caller newOwner nowUnix = .ok (s', w') ↔
      env.Authorises caller ∧ UnlockedAt s name nowUnix ∧
      ∃ e, s.entry name = some e ∧ e.isActiveAt nowUnix ∧ e.owner = caller ∧
        s' = moveName (removeLock s name) name e newOwner ∧
        ∃ w₁, callResolver out self env e name w = .ok w₁ ∧
          callNft out self env s (.syncOwner name newOwner) w₁ = .ok w' := by
  simp only [transfer, bind_eq_ok, requireAuth_eq_ok, ensureNameUnlocked_eq_ok, getEntry_eq_ok,
    ensureOwner_eq_ok, pure_eq_ok, Prod.mk.injEq, exists_const]
  constructor
  · rintro ⟨ha, _, ⟨hl, rfl⟩, e, he, ⟨h1, h2⟩, w₁, hr, w₂, hn, rfl, rfl⟩
    exact ⟨ha, hl, e, he, h1, h2, rfl, w₁, hr, hn⟩
  · rintro ⟨ha, hl, e, he, h1, h2, rfl, w₁, hr, hn⟩
    exact ⟨ha, _, ⟨hl, rfl⟩, e, he, ⟨h1, h2⟩, w₁, hr, w', hn, rfl, rfl⟩

/-- **A committed `update_owner`**: the NFT contract called, and the active name moved. -/
theorem updateOwner_eq_ok {caller newOwner : Address} :
    updateOwner env s name caller newOwner = .ok s' ↔
      s.nftContract = some caller ∧ env.Authorises caller ∧ UnlockedAt s name env.timestamp ∧
      ∃ e, s.entry name = some e ∧ e.isActiveAt env.timestamp ∧
        s' = moveName (removeLock s name) name e newOwner := by
  simp only [updateOwner, bind_eq_ok, okOr_eq_ok, requireAuth_eq_ok, require_eq_ok, getEntry_eq_ok,
    ensureNameUnlocked_eq_ok, pure_eq_ok, exists_const]
  constructor
  · rintro ⟨nft, hn, ha, rfl, e, he, _, ⟨hl, rfl⟩, h1, rfl⟩
    exact ⟨hn, ha, hl, e, he, h1, rfl⟩
  · rintro ⟨hn, ha, hl, e, he, h1, rfl⟩
    exact ⟨caller, hn, ha, rfl, e, he, _, ⟨hl, rfl⟩, h1, rfl⟩

/-- **A committed `renew`**: the caller owned the name, and neither end was put forward. -/
theorem renew_eq_ok {caller : Address} {expiresAt gracePeriodEndsAt : UInt64} :
    renew out self env s w name caller expiresAt gracePeriodEndsAt nowUnix = .ok (s', w') ↔
      env.Authorises caller ∧ UnlockedAt s name nowUnix ∧
      ∃ e, s.entry name = some e ∧ ¬ e.isClaimableAt nowUnix ∧ e.owner = caller ∧
        e.expiresAt ≤ expiresAt ∧ e.gracePeriodEndsAt ≤ gracePeriodEndsAt ∧
        nowUnix ≤ expiresAt ∧ expiresAt ≤ gracePeriodEndsAt ∧
        s' = putEntry (removeLock s name) name
          { e with expiresAt := expiresAt, gracePeriodEndsAt := gracePeriodEndsAt } ∧
        callNft out self env s (.syncExpiry name expiresAt) w = .ok w' := by
  simp only [renew, bind_eq_ok, requireAuth_eq_ok, ensureNameUnlocked_eq_ok, getEntry_eq_ok,
    require_eq_ok, validateLifecycleTimestamps_eq_ok, pure_eq_ok, Prod.mk.injEq, exists_const]
  constructor
  · rintro ⟨ha, _, ⟨hl, rfl⟩, e, he, h1, h2, h3, h4, ⟨h5, h6⟩, w₂, hn, rfl, rfl⟩
    exact ⟨ha, hl, e, he, h1, h2, h3, h4, h5, h6, rfl, hn⟩
  · rintro ⟨ha, hl, e, he, h1, h2, h3, h4, h5, h6, rfl, hn⟩
    exact ⟨ha, _, ⟨hl, rfl⟩, e, he, h1, h2, h3, h4, ⟨h5, h6⟩, w', hn, rfl, rfl⟩

/-- **A committed `burn`**: the caller owned the name, or its grace period was over. -/
theorem burn_eq_ok {caller : Address} :
    burn out self env s w name caller nowUnix = .ok (s', w') ↔
      env.Authorises caller ∧ UnlockedAt s name nowUnix ∧
      ∃ e, s.entry name = some e ∧ (e.owner = caller ∨ e.isClaimableAt nowUnix) ∧
        s' = removeEntry (removeOwnerName (removeLock s name) e.owner name) name ∧
        callNft out self env s (.burn name) w = .ok w' := by
  simp only [burn, bind_eq_ok, requireAuth_eq_ok, ensureNameUnlocked_eq_ok, getEntry_eq_ok,
    require_eq_ok, pure_eq_ok, Prod.mk.injEq, exists_const]
  constructor
  · rintro ⟨ha, _, ⟨hl, rfl⟩, e, he, h1, w₂, hn, rfl, rfl⟩
    exact ⟨ha, hl, e, he, h1, rfl, hn⟩
  · rintro ⟨ha, hl, e, he, h1, rfl, hn⟩
    exact ⟨ha, _, ⟨hl, rfl⟩, e, he, h1, w', hn, rfl, rfl⟩

/-- What the three field setters have in common: the active owner rewrites an entry, keeping its name,
    owner and lifecycle. -/
def Rewrites (env : Env) (s s' : State) (name : Bytes) (caller : Address) (nowUnix : UInt64) : Prop :=
  env.Authorises caller ∧ UnlockedAt s name nowUnix ∧
  ∃ e e', s.entry name = some e ∧ e.isActiveAt nowUnix ∧ e.owner = caller ∧
    e'.name = e.name ∧ e'.owner = e.owner ∧ e'.registeredAt = e.registeredAt ∧
    e'.expiresAt = e.expiresAt ∧ e'.gracePeriodEndsAt = e.gracePeriodEndsAt ∧
    s' = putEntry (removeLock s name) name e'

/-- `set_resolver` rewrites an entry of its owner. -/
theorem setResolver_ok {caller : Address} {resolver : Option Bytes}
    (h : setResolver out env s name caller resolver nowUnix = .ok s') :
    Rewrites env s s' name caller nowUnix := by
  simp only [setResolver, bind_eq_ok, requireAuth_eq_ok, ensureNameUnlocked_eq_ok, getEntry_eq_ok,
    ensureOwner_eq_ok, exists_const] at h
  obtain ⟨ha, _, ⟨hl, rfl⟩, e, he, ⟨h1, h2⟩, hput⟩ := h
  refine ⟨ha, hl, e, { e with resolver := resolver }, he, h1, h2, rfl, rfl, rfl, rfl, rfl, ?_⟩
  cases resolver with
  | none => exact (pure_eq_ok.mp hput).symm
  | some id =>
      simp only [bind_eq_ok, pure_eq_ok] at hput
      obtain ⟨_, _, rfl⟩ := hput
      rfl

/-- So does `set_target_address`. -/
theorem setTargetAddress_ok {caller : Address} {targetAddress : Option Bytes}
    (h : setTargetAddress env s name caller targetAddress nowUnix = .ok s') :
    Rewrites env s s' name caller nowUnix := by
  simp only [setTargetAddress, bind_eq_ok, requireAuth_eq_ok, ensureNameUnlocked_eq_ok, getEntry_eq_ok,
    ensureOwner_eq_ok, pure_eq_ok, exists_const] at h
  obtain ⟨ha, _, ⟨hl, rfl⟩, e, he, ⟨h1, h2⟩, rfl⟩ := h
  exact ⟨ha, hl, e, { e with targetAddress := targetAddress }, he, h1, h2, rfl, rfl, rfl, rfl, rfl, rfl⟩

/-- So does `set_metadata`. -/
theorem setMetadata_ok {caller : Address} {metadataUri : Option Bytes}
    (h : setMetadata env s name caller metadataUri nowUnix = .ok s') :
    Rewrites env s s' name caller nowUnix := by
  simp only [setMetadata, bind_eq_ok, requireAuth_eq_ok, ensureNameUnlocked_eq_ok,
    validateMetadata_eq_ok, getEntry_eq_ok, ensureOwner_eq_ok, pure_eq_ok, exists_const] at h
  obtain ⟨ha, _, ⟨hl, rfl⟩, _, e, he, ⟨h1, h2⟩, rfl⟩ := h
  exact ⟨ha, hl, e, { e with metadataUri := metadataUri }, he, h1, h2, rfl, rfl, rfl, rfl, rfl, rfl⟩

/-! ## Every committed invocation is one of six changes -/

/-- The calls that can change a name's owner or bounds, create its entry or remove it. -/
def Call.isLifecycle : Call → Bool
  | .register .. | .transfer .. | .updateOwner .. | .renew .. | .burn .. => true
  | _ => false

/-- The invocation carries the authority of the configured NFT contract. -/
def ByNft (env : Env) (s : State) : Prop := ∃ nft, s.nftContract = some nft ∧ env.Authorises nft

/-- The owner index once the previous registration of `name`, if any, is out of it. -/
def releasedIndex (s : State) (name : Bytes) : Index Address Bytes :=
  match s.entry name with
  | some e => s.ownerNames.filterOut e.owner name
  | none   => s.ownerNames

/-- **What a committed invocation did to the entries and the owner index, and by whose authority.** -/
inductive Change (env : Env) (s s' : State) : Call → Prop
  /-- configuration, locks: entries and index untouched -/
  | frame {c : Call} (hquiet : c.isLifecycle = false) (hentry : s'.entry = s.entry)
      (hindex : s'.ownerNames = s.ownerNames) : Change env s s' c
  /-- a setter: one entry rewritten by its owner, lifecycle untouched -/
  | rewrite {c : Call} {name : Bytes} {e e' : RegistryEntry} (hquiet : c.isLifecycle = false)
      (he : s.entry name = some e) (hauth : env.Authorises e.owner) (hname : e'.name = e.name)
      (howner : e'.owner = e.owner)
      (hreg : e'.registeredAt = e.registeredAt) (hexp : e'.expiresAt = e.expiresAt)
      (hgrace : e'.gracePeriodEndsAt = e.gracePeriodEndsAt)
      (hentry : s'.entry = s.entry.set name e') (hindex : s'.ownerNames = s.ownerNames) :
      Change env s s' c
  /-- `renew`: the owner moves both bounds forward -/
  | renew {name : Bytes} {caller : Address} {expiresAt gracePeriodEndsAt nowUnix : UInt64}
      {e : RegistryEntry} (he : s.entry name = some e) (howner : e.owner = caller)
      (hauth : env.Authorises caller) (hopen : ¬ e.isClaimableAt nowUnix)
      (hexp : e.expiresAt ≤ expiresAt) (hgrace : e.gracePeriodEndsAt ≤ gracePeriodEndsAt)
      (hlife : expiresAt ≤ gracePeriodEndsAt)
      (hentry : s'.entry = s.entry.set name
        { e with expiresAt := expiresAt, gracePeriodEndsAt := gracePeriodEndsAt })
      (hindex : s'.ownerNames = s.ownerNames) :
      Change env s s' (.renew name caller expiresAt gracePeriodEndsAt nowUnix)
  /-- `transfer`, `update_owner`: an entry and its index position move to a new owner -/
  | move {c : Call} {name : Bytes} {newOwner : Address} {e : RegistryEntry}
      (he : s.entry name = some e) (hauth : env.Authorises e.owner ∨ ByNft env s)
      (hcall : (∃ nowUnix, c = .transfer name e.owner newOwner nowUnix) ∨
        ∃ caller, c = .updateOwner name caller newOwner)
      (hentry : s'.entry = s.entry.set name { e with
        owner := newOwner, transferCount := saturatingAdd32 e.transferCount 1 })
      (hindex : s'.ownerNames = (s.ownerNames.filterOut e.owner name).push newOwner name) :
      Change env s s' c
  /-- `burn`: by the owner, or by anyone once `now_unix` is past the grace period -/
  | burn {name : Bytes} {caller : Address} {nowUnix : UInt64} {e : RegistryEntry}
      (he : s.entry name = some e) (hauth : env.Authorises caller)
      (hclaim : e.owner = caller ∨ e.isClaimableAt nowUnix)
      (hentry : s'.entry = s.entry.remove name)
      (hindex : s'.ownerNames = s.ownerNames.filterOut e.owner name) :
      Change env s s' (.burn name caller nowUnix)
  /-- `register`: a new entry, over one that `now_unix` is past the grace period of, if any -/
  | register {name : Bytes} {owner : Address} {targetAddress metadataUri : Option Bytes}
      {nowUnix expiresAt gracePeriodEndsAt : UInt64} (hauth : env.Authorises owner)
      (hvalid : validateFqdnSoroban name = .ok ()) (hnow : nowUnix ≤ expiresAt)
      (hlife : expiresAt ≤ gracePeriodEndsAt)
      (hclaim : ∀ e, s.entry name = some e → e.isClaimableAt nowUnix)
      (hentry : s'.entry = s.entry.set name
        (freshEntry name owner targetAddress metadataUri nowUnix expiresAt gracePeriodEndsAt))
      (hindex : s'.ownerNames = (releasedIndex s name).push owner name) :
      Change env s s'
        (.register name owner targetAddress metadataUri nowUnix expiresAt gracePeriodEndsAt)

/-- A rewriting is a change of its kind. -/
theorem Rewrites.change {c : Call} {caller : Address} (h : Rewrites env s s' name caller nowUnix)
    (hquiet : c.isLifecycle = false) : Change env s s' c := by
  obtain ⟨ha, _, e, e', he, _, ho, h1, h2, h3, h4, h5, rfl⟩ := h
  exact .rewrite hquiet he (ho ▸ ha) h1 h2 h3 h4 h5 rfl rfl

/-- What `release` leaves: the entry gone, its index position with it, the rest as before. -/
theorem release_spec {s₁ : State} {w₁ : ω}
    (h : release out self env (removeLock s name) w name nowUnix = .ok (s₁, w₁)) :
    s₁.entry = s.entry.remove name ∧ s₁.ownerNames = releasedIndex s name ∧
      s₁.nftContract = s.nftContract ∧ ∀ e, s.entry name = some e → e.isClaimableAt nowUnix := by
  rcases release_eq_ok.mp h with ⟨he, rfl, _⟩ | ⟨e, he, _, hc, rfl, _⟩
  · -- nothing to release
    have he' : s.entry name = none := he
    have hindex : s.ownerNames = releasedIndex s name := by
      unfold releasedIndex
      rw [he']
    refine ⟨(Store.remove_absent he').symm, hindex, rfl, ?_⟩
    intro e hold
    rw [he'] at hold
    cases hold
  · have he' : s.entry name = some e := he
    have hindex : s.ownerNames.filterOut e.owner name = releasedIndex s name := by
      unfold releasedIndex
      rw [he']
    exact ⟨rfl, hindex, rfl, (Store.forall_value_iff he').mpr hc⟩

/-- A registration is a change of its kind, whether it found an entry or not. -/
theorem register_change {owner : Address} {targetAddress metadataUri : Option Bytes}
    {expiresAt gracePeriodEndsAt : UInt64}
    (h : register out self env s w name owner targetAddress metadataUri nowUnix expiresAt
      gracePeriodEndsAt = .ok (s', w')) :
    Change env s s'
      (.register name owner targetAddress metadataUri nowUnix expiresAt gracePeriodEndsAt) := by
  obtain ⟨ha, hv, _, _, h1, h2, s₁, w₁, hr, rfl, _⟩ := register_eq_ok.mp h
  obtain ⟨hentry, hindex, _, hclaim⟩ := release_spec hr
  refine .register ha hv h1 h2 hclaim ?_ ?_
  · show s₁.entry.set name _ = _
    rw [hentry, Store.set_remove]
  · show s₁.ownerNames.push owner name = _
    rw [hindex]

/-- **Every committed invocation is a `Change`.** -/
theorem step_change {t : Tx Call} (h : step out self (s, w) t = .ok (s', w')) :
    Change t.env s s' t.call := by
  obtain ⟨env, c⟩ := t
  cases c with
  | initializeContract admin =>
      simp only [step, initializeContract, bind_eq_ok, pure_eq_ok, Prod.mk.injEq] at h
      obtain ⟨_, ⟨_, _, rfl⟩, rfl, _⟩ := h
      exact .frame rfl rfl rfl
  | setNftContract nft =>
      simp only [step, setNftContract, bind_eq_ok, pure_eq_ok, Prod.mk.injEq] at h
      obtain ⟨_, ⟨_, _, _, _, rfl⟩, rfl, _⟩ := h
      exact .frame rfl rfl rfl
  | setDisputeAdmin admin =>
      simp only [step, setDisputeAdmin, bind_eq_ok, pure_eq_ok, Prod.mk.injEq] at h
      obtain ⟨_, ⟨_, _, _, _, rfl⟩, rfl, _⟩ := h
      exact .frame rfl rfl rfl
  | upgrade data =>
      simp only [step, upgrade, upgradeStoring_eq_ok, bind_eq_ok, pure_eq_ok, Prod.mk.injEq] at h
      obtain ⟨_, ⟨_, rfl⟩, rfl, _⟩ := h
      exact .frame rfl rfl rfl
  | register name owner targetAddress metadataUri nowUnix expiresAt gracePeriodEndsAt =>
      exact register_change h
  | transfer name caller newOwner nowUnix =>
      obtain ⟨ha, _, e, he, _, rfl, rfl, _⟩ := transfer_eq_ok.mp h
      exact .move he (Or.inl ha) (Or.inl ⟨nowUnix, rfl⟩) rfl rfl
  | setResolver name caller resolver nowUnix =>
      simp only [step, bind_eq_ok, pure_eq_ok, Prod.mk.injEq] at h
      obtain ⟨_, h, rfl, _⟩ := h
      exact (setResolver_ok h).change rfl
  | setTargetAddress name caller targetAddress nowUnix =>
      simp only [step, bind_eq_ok, pure_eq_ok, Prod.mk.injEq] at h
      obtain ⟨_, h, rfl, _⟩ := h
      exact (setTargetAddress_ok h).change rfl
  | setMetadata name caller metadataUri nowUnix =>
      simp only [step, bind_eq_ok, pure_eq_ok, Prod.mk.injEq] at h
      obtain ⟨_, h, rfl, _⟩ := h
      exact (setMetadata_ok h).change rfl
  | updateOwner name caller newOwner =>
      simp only [step, bind_eq_ok, pure_eq_ok, Prod.mk.injEq] at h
      obtain ⟨_, h, rfl, _⟩ := h
      obtain ⟨hn, ha, _, e, he, _, rfl⟩ := updateOwner_eq_ok.mp h
      exact .move he (Or.inr ⟨caller, hn, ha⟩) (Or.inr ⟨caller, rfl⟩) rfl rfl
  | renew name caller expiresAt gracePeriodEndsAt nowUnix =>
      obtain ⟨ha, _, e, he, h1, h2, h3, h4, _, h6, rfl, _⟩ := renew_eq_ok.mp h
      exact .renew he h2 ha h1 h3 h4 h6 rfl rfl
  | burn name caller nowUnix =>
      obtain ⟨ha, _, e, he, h1, rfl, _⟩ := burn_eq_ok.mp h
      exact .burn he ha h1 rfl rfl
  | lockName name caller lockedUntil lockReason nowUnix =>
      simp only [step, lockName, bind_eq_ok, pure_eq_ok, Prod.mk.injEq] at h
      obtain ⟨_, ⟨_, _, _, _, _, _, _, _, _, _, _, _, rfl⟩, rfl, _⟩ := h
      exact .frame rfl rfl rfl
  | unlockName name caller =>
      simp only [step, unlockName, bind_eq_ok, pure_eq_ok, Prod.mk.injEq] at h
      obtain ⟨_, ⟨_, _, _, _, _, _, _, _, _, _, rfl⟩, rfl, _⟩ := h
      exact .frame rfl rfl rfl

/-! ## Tenures -/

/-- The owner and the expiry of a name's entry. -/
def tenure (s : State) : Bytes → Option (Address × UInt64) :=
  s.entry.view (fun e => (e.owner, e.expiresAt))

theorem tenure_eq {e : RegistryEntry} (he : s.entry name = some e) :
    tenure s name = some (e.owner, e.expiresAt) :=
  Store.view_eq _ he

theorem tenure_eq_none : tenure s name = none ↔ s.entry name = none := Option.map_eq_none_iff

/-- What a call makes of the tenures. -/
def Call.tenures (m : Bytes → Option (Address × UInt64)) : Call → Bytes → Option (Address × UInt64)
  | .register name owner _ _ _ expiresAt _ => Function.update m name (some (owner, expiresAt))
  | .transfer name _ newOwner _ =>
      Function.update m name ((m name).map (fun held => (newOwner, held.2)))
  | .updateOwner name _ newOwner =>
      Function.update m name ((m name).map (fun held => (newOwner, held.2)))
  | .renew name _ expiresAt _ _ =>
      Function.update m name ((m name).map (fun held => (held.1, expiresAt)))
  | .burn name _ _ => Function.update m name none
  | _ => m

/-- A call that is no step in the life of a name leaves the tenures. -/
theorem tenures_quiet {c : Call} (h : c.isLifecycle = false) (m : Bytes → Option (Address × UInt64)) :
    c.tenures m = m := by
  cases c with
  | register | transfer | updateOwner | renew | burn => cases h
  | _ => rfl

/-- **Every committed call does to the tenures what `Call.tenures` says.** -/
theorem Change.tenure {c : Call} (h : Change env s s' c) :
    Registry.tenure s' = c.tenures (Registry.tenure s) := by
  cases h with
  | frame hquiet hentry _ => rw [tenures_quiet hquiet, Registry.tenure, Registry.tenure, hentry]
  | @rewrite _ name e e' hquiet he _ _ howner _ hexp _ hentry _ =>
      rw [tenures_quiet hquiet, Registry.tenure, hentry]
      exact Store.view_edit _ he (by rw [howner, hexp])
  | renew he _ _ _ _ _ _ hentry _ =>
      refine Store.view_of_set _ hentry ?_
      rw [tenure_eq he]
      rfl
  | move he _ hcall hentry _ =>
      rcases hcall with ⟨_, rfl⟩ | ⟨_, rfl⟩
      · refine Store.view_of_set _ hentry ?_
        rw [tenure_eq he]
        rfl
      · refine Store.view_of_set _ hentry ?_
        rw [tenure_eq he]
        rfl
  | burn _ _ _ hentry _ =>
      rw [Registry.tenure, hentry]
      exact Store.view_remove _ _ _
  | register _ _ _ _ _ hentry _ => exact Store.view_of_set _ hentry rfl

/-! ## The outside world -/

/-- **What the calls to the configured NFT contract and to resolvers keep, a registry invocation keeps.** -/
theorem step_world {I : ω → Prop}
    (hnft : ∀ nft, s.nftContract = some nft →
      ∀ env call w w', out.nft env nft call w = some w' → I w → I w')
    (hclear : ∀ env resolver name previousOwner w w',
      out.clearReverseRecord env resolver name previousOwner w = some w' → I w → I w')
    {t : Tx Call} (h : step out self (s, w) t = .ok (s', w')) (hw : I w) : I w' := by
  have hcall : ∀ env u call w w', u.nftContract = s.nftContract →
      callNft out self env u call w = .ok w' → I w → I w' := by
    intro env u call w w' hu h hw
    unfold callNft at h
    split at h
    · rename_i nft hnft'
      exact hnft nft (hu.symm.trans hnft') _ _ _ _ (invoke_eq_ok.mp h) hw
    · obtain rfl := pure_eq_ok.mp h
      exact hw
  have hresolver : ∀ env e name w w', callResolver out self env e name w = .ok w' → I w → I w' := by
    intro env e name w w' h hw
    unfold callResolver at h
    split at h
    · simp only [bind_eq_ok, invoke_eq_ok] at h
      obtain ⟨_, _, h⟩ := h
      exact hclear _ _ _ _ _ _ h hw
    · obtain rfl := pure_eq_ok.mp h
      exact hw
  obtain ⟨env, c⟩ := t
  cases c with
  | register name owner ta uri now exp grace =>
      obtain ⟨_, _, _, _, _, _, s₁, w₁, hr, _, hmint⟩ := register_eq_ok.mp h
      have hsame : s₁.nftContract = s.nftContract := (release_spec hr).2.2.1
      refine hcall _ _ _ _ _ hsame hmint ?_
      rcases release_eq_ok.mp hr with ⟨_, _, rfl⟩ | ⟨_, _, _, _, _, hburn⟩
      · exact hw
      · exact hcall _ _ _ _ _ rfl hburn hw
  | transfer name caller newOwner now =>
      obtain ⟨_, _, _, _, _, _, _, w₁, hr, hsync⟩ := transfer_eq_ok.mp h
      exact hcall _ _ _ _ _ rfl hsync (hresolver _ _ _ _ _ hr hw)
  | renew name caller exp grace now =>
      obtain ⟨_, _, _, _, _, _, _, _, _, _, _, hsync⟩ := renew_eq_ok.mp h
      exact hcall _ _ _ _ _ rfl hsync hw
  | burn name caller now =>
      obtain ⟨_, _, _, _, _, _, hburn⟩ := burn_eq_ok.mp h
      exact hcall _ _ _ _ _ rfl hburn hw
  | _ =>
      simp only [step, bind_eq_ok, pure_eq_ok, Prod.mk.injEq] at h
      obtain ⟨_, _, _, rfl⟩ := h
      exact hw

/-! ### Calls that do not tell two worlds apart -/

section MapWorld

variable {f : ω → ω}

/-- A view of the world that the NFT contract respects goes through a call to it. -/
theorem callNft_map (hnft : ∀ env nft call w, out.nft env nft call (f w) = (out.nft env nft call w).map f)
    (s : State) (call : NftCall) (w : ω) :
    callNft out self env s call (f w) = (callNft out self env s call w).map f := by
  unfold callNft
  split
  · rw [hnft, invoke_map]
  · rfl

/-- The same for a call to the resolver. -/
theorem callResolver_map
    (hclear : ∀ env resolver name previousOwner w, out.clearReverseRecord env resolver name previousOwner (f w)
      = (out.clearReverseRecord env resolver name previousOwner w).map f)
    (entry : RegistryEntry) (name : Bytes) (w : ω) :
    callResolver out self env entry name (f w) = (callResolver out self env entry name w).map f := by
  unfold callResolver
  split
  · simp only [hclear, invoke_map, map_bind_outcome]
  · rfl

/-- The same for what `register` clears away. -/
theorem release_map (hnft : ∀ env nft call w, out.nft env nft call (f w) = (out.nft env nft call w).map f)
    (s : State) (w : ω) (name : Bytes) (nowUnix : UInt64) :
    release out self env s (f w) name nowUnix
      = (release out self env s w name nowUnix).map (fun sw => (sw.1, f sw.2)) := by
  unfold release
  split
  · simp only [callNft_map hnft, map_bind_outcome, bind_map_outcome, map_pure_outcome]
  · rfl

/-- **The registry does not tell worlds apart that the contracts it calls do not tell apart.** -/
theorem step_map_world (hnft : ∀ env nft call w, out.nft env nft call (f w) = (out.nft env nft call w).map f)
    (hclear : ∀ env resolver name previousOwner w, out.clearReverseRecord env resolver name previousOwner (f w)
      = (out.clearReverseRecord env resolver name previousOwner w).map f) (s : State) (w : ω) (t : Tx Call) :
    step out self (s, f w) t = (step out self (s, w) t).map (fun sw => (sw.1, f sw.2)) := by
  obtain ⟨env, c⟩ := t
  cases c with
  | register name owner targetAddress metadataUri nowUnix expiresAt gracePeriodEndsAt =>
      simp only [step, register, release_map hnft, callNft_map hnft, map_bind_outcome, bind_map_outcome,
        map_pure_outcome]
  | transfer name caller newOwner nowUnix =>
      simp only [step, transfer, callResolver_map hclear, callNft_map hnft, map_bind_outcome, bind_map_outcome,
        map_pure_outcome]
  | renew name caller expiresAt gracePeriodEndsAt nowUnix =>
      simp only [step, renew, callNft_map hnft, map_bind_outcome, bind_map_outcome, map_pure_outcome]
  | burn name caller nowUnix =>
      simp only [step, burn, callNft_map hnft, map_bind_outcome, bind_map_outcome, map_pure_outcome]
  | _ => simp only [step, map_bind_outcome, map_pure_outcome]

end MapWorld

end XlmNs.Registry
