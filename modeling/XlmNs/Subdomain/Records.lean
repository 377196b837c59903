import XlmNs.Subdomain.Steps

/-!
# `Subdomain.Records` — what a committed invocation did to the subdomains

Subdomains are kept twice: as records by name, and as a list of names under each parent. `Listed` says the lists are
exact; it is what makes a purge complete, as a purge goes by the list of its parent (`Listed.purged_iff`).

`Effect` says of every committed invocation what it did to the subdomains: purge some, create one, or pass one on to a
new owner. So a subdomain stored after an invocation was stored before it, under the same parent, or was created by it
(`Effect.origin`).
-/

namespace XlmNs.Subdomain

open Soroban

variable {ω : Type} {out : Outside ω} {env : Env} {s s' : State} {w : ω}
variable {p fqdn : Bytes} {record : SubdomainRecord}

/-- **Every subdomain is listed under its parent, and nothing else is.** -/
def Listed (s : State) : Prop := Index.Exact s.parentSubdomains s.subdomain (fun record => record.parent)

/-- No subdomain is listed at the start. -/
theorem listed_empty : Listed State.empty := Index.Exact.empty _

/-! ## Purging -/

/-- A purge of one record keeps the list of its parent. -/
theorem Listed.purgeRecord (h : Listed s) (hrecord : s.subdomain fqdn = some record) :
    Listed (purgeSubdomainRecord s fqdn record) := h.erase hrecord

/-- Purging a subdomain that is gone already. -/
theorem Listed.purgeAbsent (h : Listed s) (hnone : s.subdomain fqdn = none) (record : SubdomainRecord) :
    Listed (purgeSubdomainRecord s fqdn record) := by
  show Index.Exact (s.parentSubdomains.eraseFirst record.parent fqdn) (s.subdomain.remove fqdn) _
  rw [h.erase_absent hnone, Store.remove_absent hnone]
  exact h

theorem purgeListed_subdomain (s : State) (fqdn : Bytes) :
    (purgeListed s fqdn).subdomain = s.subdomain.remove fqdn := by
  unfold purgeListed
  split
  · rfl
  · rename_i hnone
    exact (Store.remove_absent hnone).symm

theorem Listed.purgeListed (h : Listed s) (fqdn : Bytes) : Listed (purgeListed s fqdn) := by
  unfold Subdomain.purgeListed
  split
  · rename_i hrecord
    exact h.purgeRecord hrecord
  · exact h

/-- What the purging loop leaves. -/
theorem foldl_purgeListed_eq_some {fqdns : List Bytes} :
    (fqdns.foldl purgeListed s).subdomain fqdn = some record ↔
      fqdn ∉ fqdns ∧ s.subdomain fqdn = some record := by
  induction fqdns generalizing s with
  | nil => simp
  | cons first fqdns ih =>
      -- the first turn takes `first`, the rest of the loop runs on what that leaves
      rw [List.foldl_cons, ih, purgeListed_subdomain, Store.remove_eq_some, List.mem_cons, not_or]
      exact and_left_comm.trans and_assoc.symm

theorem Listed.foldl (h : Listed s) (fqdns : List Bytes) : Listed (fqdns.foldl Subdomain.purgeListed s) := by
  induction fqdns generalizing s with
  | nil => exact h
  | cons fqdn fqdns ih => exact ih (h.purgeListed fqdn)

/-- **A purge takes the parent's subdomains and no others.** -/
theorem Listed.purged_iff (h : Listed s) :
    (purgeParentNamespace s p).subdomain fqdn = some record ↔
      s.subdomain fqdn = some record ∧ record.parent ≠ p := by
  show ((getParentSubdomains s p).foldl Subdomain.purgeListed s).subdomain fqdn = some record ↔ _
  rw [foldl_purgeListed_eq_some, and_comm]
  refine and_congr_right (fun hrecord => not_congr ?_)
  -- a stored subdomain is on the list purged iff it is the parent's
  show fqdn ∈ s.parentSubdomains.keys p ↔ record.parent = p
  rw [h.mem_iff]
  constructor
  · rintro ⟨other, hother, hparent⟩
    obtain rfl := Option.some.inj (hrecord.symm.trans hother)
    exact hparent
  · intro hparent
    exact ⟨record, hrecord, hparent⟩

/-- A purge of a namespace keeps the lists of the others. -/
theorem Listed.purgeParentNamespace (h : Listed s) (p : Bytes) : Listed (purgeParentNamespace s p) := by
  apply (h.foldl (getParentSubdomains s p)).drop
  intro fqdn record hrecord
  exact (h.purged_iff.mp hrecord).2

/-- Some subdomains are gone, and the lists as exact as before. -/
structure Purged (s s' : State) : Prop where
  kept   : ∀ fqdn record, s'.subdomain fqdn = some record → s.subdomain fqdn = some record
  listed : Listed s → Listed s'

theorem Purged.of_eq (hsub : s'.subdomain = s.subdomain) (hidx : s'.parentSubdomains = s.parentSubdomains) :
    Purged s s' := by
  constructor
  · intro fqdn record hrecord
    rwa [hsub] at hrecord
  · intro h
    unfold Listed
    rwa [hsub, hidx]

theorem Purged.refl (s : State) : Purged s s := .of_eq rfl rfl

/-- What two purges leave was there before. -/
theorem Purged.trans {s₁ : State} (h₁ : Purged s s₁) (h₂ : Purged s₁ s') : Purged s s' := by
  constructor
  · intro fqdn record hrecord
    exact h₁.kept fqdn record (h₂.kept fqdn record hrecord)
  · intro h
    exact h₂.listed (h₁.listed h)

/-- A purge of a namespace makes nothing. -/
theorem purged_purgeParentNamespace (s : State) (p : Bytes) : Purged s (purgeParentNamespace s p) := by
  constructor
  · intro fqdn record hrecord
    exact (foldl_purgeListed_eq_some.mp hrecord).2
  · intro h
    exact h.purgeParentNamespace p

/-- A look at a parent makes nothing. -/
theorem purged_ensureParentIsActive (out : Outside ω) (env : Env) (s : State) (w : ω) (p : Bytes) :
    Purged s (ensureParentIsActive out env s w p).1 := by
  unfold ensureParentIsActive
  split
  · exact .refl s
  · split
    · exact .refl s
    · exact purged_purgeParentNamespace s p

theorem purged_purgeSubdomainRecord (s : State) (hrecord : s.subdomain fqdn = some record) :
    Purged s (purgeSubdomainRecord s fqdn record) := by
  constructor
  · intro fqdn' record' hrecord'
    exact (Store.remove_eq_some.mp hrecord').2
  · intro h
    exact h.purgeRecord hrecord

/-- An inactive parent loses its whole namespace. -/
theorem ensureParentIsActive_false {s₁ : State} (h : ensureParentIsActive out env s w p = (s₁, false)) :
    s₁ = purgeParentNamespace s p := by
  unfold ensureParentIsActive at h
  split at h
  · cases h
  · split at h
    · cases h
    · exact (congrArg Prod.fst h).symm

/-- A query about a subdomain makes nothing. -/
theorem purged_record (out : Outside ω) (env : Env) (s : State) (w : ω) (fqdn : Bytes) :
    Purged s (Subdomain.record out env s w fqdn).1 := by
  unfold Subdomain.record
  split
  · exact .refl s
  · rename_i record hrecord
    have hactive := purged_ensureParentIsActive out env s w record.parent
    split
    · rename_i s₁ heq
      rwa [heq] at hactive
    · -- the record went with its parent's namespace already
      rename_i s₁ heq
      have hs₁ := ensureParentIsActive_false heq
      rw [heq] at hactive
      constructor
      · intro fqdn' record' hrecord'
        exact hactive.kept _ _ (Store.remove_eq_some.mp hrecord').2
      · intro h
        refine (hactive.listed h).purgeAbsent ?_ record
        rw [Option.eq_none_iff_forall_ne_some]
        intro record' hrecord'
        rw [hs₁] at hrecord'
        obtain ⟨hold, hother⟩ := h.purged_iff.mp hrecord'
        rw [hrecord] at hold
        exact hother (by rw [Option.some.inj hold])

theorem purged_parent (out : Outside ω) (env : Env) (s : State) (w : ω) (name : Bytes) :
    Purged s (parent out env s w name).1 := by
  rw [parent_state]
  exact purged_ensureParentIsActive out env s w name

theorem purged_subdomainsForParent (out : Outside ω) (env : Env) (s : State) (w : ω) (name : Bytes) :
    Purged s (subdomainsForParent out env s w name).1 := by
  rw [subdomainsForParent_state]
  exact purged_ensureParentIsActive out env s w name

/-- Nor does a registration of a parent. -/
theorem purged_registerParent {owner : Address} (h : registerParent out env s w p owner = .ok s') :
    Purged s s' := by
  obtain ⟨_, _, s₁, hs₁, rfl⟩ := registerParent_ok h
  -- the parent record written last is no subdomain
  suffices hpurged : Purged s s₁ from hpurged.trans (.of_eq rfl rfl)
  rcases hs₁ with ⟨rfl, _⟩ | rfl
  · exact .refl s₁
  · exact purged_purgeParentNamespace s p

/-! ## Every committed invocation -/

/-- The subdomain a call creates, and its parent. -/
def Call.created : Call → Option (Bytes × Bytes)
  | .create label name _ _ _ => some (label ++ dot :: name, name)
  | _                        => none

/-- **What a committed invocation did to the subdomains.** -/
inductive Effect (s s' : State) : Call → Prop
  /-- at most a purge -/
  | purge {c : Call} (hcall : c.created = none) (hpurged : Purged s s') : Effect s s' c
  /-- a new subdomain -/
  | create {label name : Bytes} {caller owner : Address} {nowUnix : UInt64}
      (hfresh : s.subdomain (label ++ dot :: name) = none)
      (hsub : s'.subdomain = s.subdomain.set (label ++ dot :: name) ⟨name, owner, nowUnix⟩)
      (hidx : s'.parentSubdomains = s.parentSubdomains.push name (label ++ dot :: name)) :
      Effect s s' (.create label name caller owner nowUnix)
  /-- a subdomain changes hands -/
  | move {fqdn : Bytes} {caller newOwner : Address} {record : SubdomainRecord}
      (hrecord : s.subdomain fqdn = some record)
      (hsub : s'.subdomain = s.subdomain.set fqdn { record with owner := newOwner })
      (hidx : s'.parentSubdomains = s.parentSubdomains) : Effect s s' (.transfer fqdn caller newOwner)

/-- **Every committed invocation is an `Effect`.** -/
theorem step_effect {t : Tx Call} (h : step out w s t = .ok s') : Effect s s' t.call := by
  obtain ⟨env, c⟩ := t
  cases c with
  | initializeContract | setRegistryContract | setMaxDepth | upgrade =>
      have hsame := step_administers rfl h
      exact .purge rfl (.of_eq hsame.subdomain hsame.parentSubdomains)
  | registerParent name owner => exact .purge rfl (purged_registerParent h)
  | addController name caller controller =>
      obtain ⟨_, _, rfl | rfl⟩ := addController_ok h
      · exact .purge rfl (.refl s')
      · exact .purge rfl (.of_eq rfl rfl)
  | removeController name caller controller =>
      obtain ⟨_, _, rfl | rfl⟩ := removeController_ok h
      · exact .purge rfl (.refl s')
      · exact .purge rfl (.of_eq rfl rfl)
  | create label name caller owner nowUnix =>
      obtain ⟨⟨s₁, fqdn⟩, hcreate, hs₁⟩ := bind_eq_ok.mp h
      obtain rfl := pure_eq_ok.mp hs₁
      obtain ⟨_, rfl, hfresh, rfl⟩ := create_ok hcreate
      exact .create hfresh rfl rfl
  | transfer fqdn caller newOwner =>
      obtain ⟨record, hrecord, rfl⟩ := transfer_ok h
      exact .move hrecord rfl rfl
  | delete fqdn caller =>
      obtain ⟨record, hrecord, rfl, _⟩ := delete_ok h
      exact .purge rfl (purged_purgeSubdomainRecord s hrecord)
  | revoke fqdn caller =>
      obtain ⟨record, hrecord, rfl, _⟩ := revoke_ok h
      exact .purge rfl (purged_purgeSubdomainRecord s hrecord)
  -- the queries purge what they find inactive
  | parent name =>
      obtain rfl := pure_eq_ok.mp h
      exact .purge rfl (purged_parent out env s w name)
  | record fqdn =>
      obtain rfl := pure_eq_ok.mp h
      exact .purge rfl (purged_record out env s w fqdn)
  | existsRecord fqdn =>
      obtain rfl := pure_eq_ok.mp h
      exact .purge rfl (purged_record out env s w fqdn)
  | subdomainsForParent name =>
      obtain rfl := pure_eq_ok.mp h
      exact .purge rfl (purged_subdomainsForParent out env s w name)

/-- The lists stay exact. -/
theorem Effect.listed {c : Call} (h : Effect s s' c) (hlisted : Listed s) : Listed s' := by
  cases h with
  | purge _ hpurged => exact hpurged.listed hlisted
  | @create label name _ owner nowUnix hfresh hsub hidx =>
      unfold Listed
      rw [hsub, hidx]
      exact hlisted.insert ⟨name, owner, nowUnix⟩ hfresh
  | move hrecord hsub hidx =>
      unfold Listed
      rw [hsub, hidx]
      exact hlisted.edit hrecord rfl

/-- **Where a subdomain comes from**: it is an old one, under the parent it has, or the call created it. -/
theorem Effect.origin {c : Call} (h : Effect s s' c) (hrecord : s'.subdomain fqdn = some record) :
    ((∃ old, s.subdomain fqdn = some old ∧ old.parent = record.parent) ∧ ∀ name, c.created ≠ some (fqdn, name)) ∨
      c.created = some (fqdn, record.parent) := by
  cases h with
  | purge hcall hpurged =>
      refine Or.inl ⟨⟨record, hpurged.kept fqdn record hrecord, rfl⟩, ?_⟩
      intro name hname
      rw [hcall] at hname
      cases hname
  | create hfresh hsub _ =>
      rw [hsub] at hrecord
      rcases Store.set_eq_some.mp hrecord with ⟨rfl, rfl⟩ | ⟨hne, hold⟩
      · exact Or.inr rfl
      · refine Or.inl ⟨⟨record, hold, rfl⟩, ?_⟩
        intro name hname
        exact hne (Prod.mk.inj (Option.some.inj hname)).1.symm
  | move hold hsub _ =>
      refine Or.inl ⟨?_, fun name hname => by cases hname⟩
      rw [hsub] at hrecord
      rcases Store.set_eq_some.mp hrecord with ⟨rfl, rfl⟩ | ⟨_, hsame⟩
      · exact ⟨_, hold, rfl⟩
      · exact ⟨record, hsame, rfl⟩

/-! ## Configuration -/

/-- The part of the storage that only the administration changes. -/
def settings (s : State) : Option Address × Option Address × Option UInt32 × Option UInt32 :=
  (s.registryContract, s.admin, s.contractVersion, s.maxDepth)

theorem foldl_purgeListed_settings (fqdns : List Bytes) (s : State) :
    settings (fqdns.foldl purgeListed s) = settings s := by
  induction fqdns generalizing s with
  | nil => rfl
  | cons fqdn fqdns ih =>
      have hone : settings (purgeListed s fqdn) = settings s := by
        unfold purgeListed
        split <;> rfl
      exact (ih (purgeListed s fqdn)).trans hone

theorem purgeParentNamespace_settings (s : State) (p : Bytes) :
    settings (purgeParentNamespace s p) = settings s :=
  foldl_purgeListed_settings (getParentSubdomains s p) s

/-- A look at a parent leaves the settings. -/
theorem ensureParentIsActive_settings (out : Outside ω) (env : Env) (s : State) (w : ω) (p : Bytes) :
    settings (ensureParentIsActive out env s w p).1 = settings s := by
  unfold ensureParentIsActive
  split
  · rfl
  · split
    · rfl
    · exact purgeParentNamespace_settings s p

/-- So does a query about a subdomain. -/
theorem record_settings (out : Outside ω) (env : Env) (s : State) (w : ω) (fqdn : Bytes) :
    settings (Subdomain.record out env s w fqdn).1 = settings s := by
  unfold Subdomain.record
  split
  · rfl
  · rename_i record _
    have h := ensureParentIsActive_settings out env s w record.parent
    split <;> rename_i heq <;> rw [heq] at h <;> exact h

/-- The calls of the administration that write something. -/
def Call.configures : Call → Bool
  | .initializeContract .. | .setRegistryContract .. | .setMaxDepth .. => true
  | _ => false

/-- So does every call that configures nothing. -/
theorem step_settings {c : Call} (h : step out w s ⟨env, c⟩ = .ok s') (hc : c.configures = false) :
    settings s' = settings s := by
  cases c with
  | initializeContract | setRegistryContract | setMaxDepth => cases hc
  | upgrade =>
      simp only [step, upgrade, bind_eq_ok, pure_eq_ok] at h
      obtain ⟨_, _, _, _, rfl⟩ := h
      rfl
  | registerParent name owner =>
      obtain ⟨_, _, s₁, hs₁, rfl⟩ := registerParent_ok h
      rcases hs₁ with ⟨rfl, _⟩ | rfl
      · rfl
      · exact purgeParentNamespace_settings s name
  | addController name caller controller =>
      obtain ⟨_, _, rfl | rfl⟩ := addController_ok h <;> rfl
  | removeController name caller controller =>
      obtain ⟨_, _, rfl | rfl⟩ := removeController_ok h <;> rfl
  | create label name caller owner nowUnix =>
      obtain ⟨⟨s₁, fqdn⟩, hcreate, hs₁⟩ := bind_eq_ok.mp h
      obtain rfl := pure_eq_ok.mp hs₁
      obtain ⟨_, _, _, rfl⟩ := create_ok hcreate
      rfl
  | transfer fqdn caller newOwner =>
      obtain ⟨_, _, rfl⟩ := transfer_ok h
      rfl
  | delete fqdn caller =>
      obtain ⟨_, _, rfl, _⟩ := delete_ok h
      rfl
  | revoke fqdn caller =>
      obtain ⟨_, _, rfl, _⟩ := revoke_ok h
      rfl
  | parent name =>
      obtain rfl := pure_eq_ok.mp h
      rw [parent_state]
      exact ensureParentIsActive_settings out env s w name
  | record fqdn =>
      obtain rfl := pure_eq_ok.mp h
      exact record_settings out env s w fqdn
  | existsRecord fqdn =>
      obtain rfl := pure_eq_ok.mp h
      exact record_settings out env s w fqdn
  | subdomainsForParent name =>
      obtain rfl := pure_eq_ok.mp h
      rw [subdomainsForParent_state]
      exact ensureParentIsActive_settings out env s w name

/-- The registry a call configures. -/
def Call.connects : Call → Option Address
  | .setRegistryContract registryContract => some registryContract
  | _                                     => none

/-- **The registry changes by `set_registry_contract` only.** -/
theorem step_registryContract {c : Call} (h : step out w s ⟨env, c⟩ = .ok s') :
    s'.registryContract = c.connects.or s.registryContract := by
  have hkept : c.configures = false → s'.registryContract = s.registryContract :=
    fun hc => congrArg Prod.fst (step_settings h hc)
  cases c with
  | initializeContract admin =>
      simp only [step, initializeContract, bind_eq_ok, pure_eq_ok] at h
      obtain ⟨_, _, rfl⟩ := h
      rfl
  | setRegistryContract registryContract =>
      simp only [step, setRegistryContract, bind_eq_ok, pure_eq_ok] at h
      obtain ⟨_, _, _, _, rfl⟩ := h
      rfl
  | setMaxDepth depth =>
      simp only [step, setMaxDepth, bind_eq_ok, pure_eq_ok] at h
      obtain ⟨_, _, _, _, rfl⟩ := h
      rfl
  | _ => exact hkept rfl

/-! ## What the queries sweep -/

/-- A look below an inactive parent sweeps it. -/
theorem Listed.swept (h : Listed s) (hinactive : ¬ ParentActive out env s w p)
    (hrecord : (ensureParentIsActive out env s w p).1.subdomain fqdn = some record) : record.parent ≠ p := by
  cases hensure : ensureParentIsActive out env s w p with
  | mk s₁ active =>
      cases active with
      | true =>
          have hrequire : requireActive out env s w p = .ok () := by
            unfold requireActive
            rw [hensure]
            rfl
          exact absurd (requireActive_eq_ok.mp hrequire) hinactive
      | false =>
          rw [hensure, ensureParentIsActive_false hensure] at hrecord
          exact (h.purged_iff.mp hrecord).2

/-- **After `parent` or `subdomains_for_parent` on an inactive name, no subdomain of it is stored.** -/
theorem Listed.swept_by_query {c : Call} (h : Listed s) (hinactive : ¬ ParentActive out env s w p)
    (hc : c = .parent p ∨ c = .subdomainsForParent p) (hok : step out w s ⟨env, c⟩ = .ok s')
    (hrecord : s'.subdomain fqdn = some record) : record.parent ≠ p := by
  rcases hc with rfl | rfl
  · obtain rfl := pure_eq_ok.mp hok
    rw [parent_state] at hrecord
    exact h.swept hinactive hrecord
  · obtain rfl := pure_eq_ok.mp hok
    rw [subdomainsForParent_state] at hrecord
    exact h.swept hinactive hrecord

/-! ## What the queries return -/

/-- What a query returns is stored. -/
theorem record_eq_some (h : (Subdomain.record out env s w fqdn).2 = some record) :
    s.subdomain fqdn = some record := by
  unfold Subdomain.record at h
  split at h
  · cases h
  · rename_i record' hrecord
    split at h
    · obtain rfl := Option.some.inj h
      exact hrecord
    · cases h

/-- Under an active parent the record is returned. -/
theorem record_of_active (hrecord : s.subdomain fqdn = some record)
    (hactive : ParentActive out env s w record.parent) : (Subdomain.record out env s w fqdn).2 = some record := by
  have hrequire : requireActive out env s w record.parent = .ok () := requireActive_eq_ok.mpr hactive
  have hensure : (ensureParentIsActive out env s w record.parent).2 = true := require_eq_ok.mp hrequire
  unfold Subdomain.record
  rw [hrecord]
  simp only
  split
  · rfl
  · rename_i heq
    rw [heq] at hensure
    cases hensure

/-- What a query lists is listed. -/
theorem mem_of_subdomainsForParent (h : fqdn ∈ (subdomainsForParent out env s w p).2) :
    fqdn ∈ s.parentSubdomains.keys p := by
  unfold subdomainsForParent at h
  split at h
  · rename_i s₁ heq
    have hsame : s₁ = s := by
      unfold ensureParentIsActive at heq
      split at heq
      · exact (congrArg Prod.fst heq).symm
      · split at heq
        · exact (congrArg Prod.fst heq).symm
        · cases heq
    rwa [hsame] at h
  · cases h

end XlmNs.Subdomain
