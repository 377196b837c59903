import XlmNs.Subdomain.Contract

/-!
# `Subdomain.Steps` — what a committed invocation did to the parent records, and on whose authority

Purges only ever drop parent records, so after a committed call a parent record is either an old one, possibly
with its controllers edited by its owner, or the one `register_parent` just wrote (`step_parent`). The calls that
use the authority over a parent are named by `Call.exercises`; each needs the caller's signature, an active parent
and a parent record that admits the caller (`step_exercises`).
-/

namespace XlmNs.Subdomain

open Soroban

variable {ω : Type} {out : Outside ω} {env : Env} {s s' : State} {w : ω}
variable {p : Bytes} {caller : Address} {rec rec' : ParentDomain}

/-! ## Purging drops parent records and adds none -/

theorem purgeListed_parent (s : State) (fqdn : Bytes) : (purgeListed s fqdn).parent = s.parent := by
  unfold purgeListed
  split <;> rfl

theorem foldl_purgeListed_parent (fqdns : List Bytes) (s : State) :
    (fqdns.foldl purgeListed s).parent = s.parent := by
  induction fqdns generalizing s with
  | nil => rfl
  | cons fqdn fqdns ih => exact (ih (purgeListed s fqdn)).trans (purgeListed_parent s fqdn)

/-- A purge deletes the record of one parent. -/
theorem purgeParentNamespace_parent (s : State) (p : Bytes) :
    (purgeParentNamespace s p).parent = s.parent.remove p := by
  simp only [purgeParentNamespace, foldl_purgeListed_parent]

/-- Every parent record of `s'` was there in `s`. -/
def ParentsFrom (s s' : State) : Prop := ∀ p rec, s'.parent p = some rec → s.parent p = some rec

theorem ParentsFrom.of_eq (h : s'.parent = s.parent) : ParentsFrom s s' := by
  intro p rec hp
  rw [h] at hp
  exact hp

/-- A purge makes no parent. -/
theorem parentsFrom_purge (s : State) (name : Bytes) : ParentsFrom s (purgeParentNamespace s name) := by
  intro p rec hp
  rw [purgeParentNamespace_parent] at hp
  exact (Store.remove_eq_some.mp hp).2

/-- Nor does a look at a parent. -/
theorem parentsFrom_ensureParentIsActive (out : Outside ω) (env : Env) (s : State) (w : ω)
    (name : Bytes) : ParentsFrom s (ensureParentIsActive out env s w name).1 := by
  unfold ensureParentIsActive
  split
  · exact ParentsFrom.of_eq rfl
  · split
    · exact ParentsFrom.of_eq rfl
    · exact parentsFrom_purge s name

/-- `parent` and `subdomains_for_parent` write what the check for an active parent writes. -/
theorem parent_state (out : Outside ω) (env : Env) (s : State) (w : ω) (name : Bytes) :
    (parent out env s w name).1 = (ensureParentIsActive out env s w name).1 := by
  unfold parent
  split <;> rename_i heq <;> rw [heq]

/-- A query purges as a look at the parent does. -/
theorem subdomainsForParent_state (out : Outside ω) (env : Env) (s : State) (w : ω) (name : Bytes) :
    (subdomainsForParent out env s w name).1 = (ensureParentIsActive out env s w name).1 := by
  unfold subdomainsForParent
  split <;> rename_i heq <;> rw [heq]

theorem parentsFrom_parent (out : Outside ω) (env : Env) (s : State) (w : ω) (name : Bytes) :
    ParentsFrom s (parent out env s w name).1 := by
  rw [parent_state]
  exact parentsFrom_ensureParentIsActive out env s w name

theorem parentsFrom_subdomainsForParent (out : Outside ω) (env : Env) (s : State) (w : ω)
    (name : Bytes) : ParentsFrom s (subdomainsForParent out env s w name).1 := by
  rw [subdomainsForParent_state]
  exact parentsFrom_ensureParentIsActive out env s w name

/-- A query about a subdomain makes no parent. -/
theorem parentsFrom_record (out : Outside ω) (env : Env) (s : State) (w : ω) (fqdn : Bytes) :
    ParentsFrom s (record out env s w fqdn).1 := by
  unfold record
  split
  · exact ParentsFrom.of_eq rfl
  · rename_i record _
    have h := parentsFrom_ensureParentIsActive out env s w record.parent
    split <;> rename_i heq <;> rw [heq] at h
    · exact h
    · exact fun p rec hp => h p rec hp

/-! ## Guards -/

/-- With a registry configured, it says the name is Active at the ledger time. -/
def ParentActive (out : Outside ω) (env : Env) (s : State) (w : ω) (p : Bytes) : Prop :=
  ∀ registry, s.registryContract = some registry →
    out.nameState registry p env.timestamp w = some .active

/-- The parent is active as far as the configured registry says. -/
@[simp] theorem requireActive_eq_ok {u : Unit} :
    requireActive out env s w p = .ok u ↔ ParentActive out env s w p := by
  unfold requireActive ensureParentIsActive ParentActive
  rw [require_eq_ok]
  cases hreg : s.registryContract with
  | none => simp
  | some registry =>
      by_cases hactive : out.nameState registry p env.timestamp w = some .active
      · simp [hactive]
      · simp [hactive]

/-- The parent is active, and has a record. -/
@[simp] theorem getParent_eq_ok :
    getParent out env s w p = .ok rec ↔ ParentActive out env s w p ∧ s.parent p = some rec := by
  simp [getParent, bind_eq_ok]

@[simp] theorem getSubdomain_eq_ok {fqdn : Bytes} {record : SubdomainRecord} :
    getSubdomain s fqdn = .ok record ↔ s.subdomain fqdn = some record := by
  simp [getSubdomain]

@[simp] theorem bufferSlice_eq_ok {length : Nat} {u : Unit} :
    bufferSlice length = .ok u ↔ length ≤ 256 := by
  unfold bufferSlice
  split <;> simp_all

/-! ## Entrypoints that returned `Ok`, read backwards -/

/-- With a registry configured, `resolve` at the ledger time names the owner. -/
def RegistryOwns (out : Outside ω) (env : Env) (s : State) (w : ω) (p : Bytes) (owner : Address) :
    Prop :=
  ∀ registry, s.registryContract = some registry →
    ∃ entry, out.registryResolve registry p env.timestamp w = some entry ∧ entry.owner = owner

/-- The old record of a parent is purged, if there is one; the new owner is whom the registry names. -/
theorem vacateParent_ok {owner : Address} (h : vacateParent out env s w p owner = .ok s') :
    RegistryOwns out env s w p owner ∧ ((s' = s ∧ s.parent p = none) ∨ s' = purgeParentNamespace s p) := by
  unfold vacateParent at h
  split at h
  · rename_i registry hreg
    simp only [bind_eq_ok, okOr_eq_ok, require_eq_ok, exists_const] at h
    obtain ⟨entry, hentry, howner, h⟩ := h
    constructor
    · intro registry' hreg'
      obtain rfl := Option.some.inj (hreg.symm.trans hreg')
      exact ⟨entry, hentry, howner⟩
    · split at h
      · simp only [bind_eq_ok, require_eq_ok, pure_eq_ok, exists_const] at h
        exact Or.inr h.2.symm
      · rename_i hnone
        exact Or.inl ⟨(pure_eq_ok.mp h).symm, hnone⟩
  · rename_i hreg
    simp only [bind_eq_ok, require_eq_ok, pure_eq_ok, exists_const] at h
    refine ⟨?_, Or.inl ⟨h.2.symm, h.1⟩⟩
    intro registry' hreg'
    cases hreg.symm.trans hreg'

/-- **A committed `register_parent`**: the registry gives the name to the owner, and the name was free or is
    purged. -/
theorem registerParent_ok {owner : Address} (h : registerParent out env s w p owner = .ok s') :
    validateBaseNameSoroban p = .ok () ∧ RegistryOwns out env s w p owner ∧
      ∃ s₁, ((s₁ = s ∧ s.parent p = none) ∨ s₁ = purgeParentNamespace s p) ∧
        s' = { s₁ with parent := s₁.parent.set p ⟨owner, []⟩ } := by
  simp only [registerParent, bind_eq_ok, requireAuth_eq_ok, mapErr_eq_ok, pure_eq_ok, exists_const] at h
  obtain ⟨_, _, _, ⟨⟩, hbase, s₁, hvacate, rfl⟩ := h
  obtain ⟨howns, hs₁⟩ := vacateParent_ok hvacate
  exact ⟨hbase, howns, s₁, hs₁, rfl⟩

/-- The signed owner of an active parent record acts on it. -/
structure OwnerActs (out : Outside ω) (env : Env) (s : State) (w : ω) (p : Bytes) (caller : Address)
    (rec : ParentDomain) : Prop where
  signed : env.Authorises caller
  active : ParentActive out env s w p
  found  : s.parent p = some rec
  owner  : rec.owner = caller

/-- **A committed `add_controller`**: the owner of the parent acted, and the controller is listed once. -/
theorem addController_ok {controller : Address}
    (h : addController out env s w p caller controller = .ok s') :
    ∃ rec, OwnerActs out env s w p caller rec ∧ (s' = s ∨
      s' = { s with parent := s.parent.set p { rec with controllers := rec.controllers ++ [controller] } }) := by
  simp only [addController, bind_eq_ok, requireAuth_eq_ok, getParent_eq_ok, require_eq_ok,
    exists_const] at h
  obtain ⟨hauth, rec, ⟨hactive, hrec⟩, howner, h⟩ := h
  refine ⟨rec, ⟨hauth, hactive, hrec, howner⟩, ?_⟩
  -- a controller that is listed already is not added again
  split at h
  · exact Or.inl (pure_eq_ok.mp h).symm
  · exact Or.inr (pure_eq_ok.mp h).symm

/-- **A committed `remove_controller`**: the owner of the parent acted, and the controller is off the list. -/
theorem removeController_ok {controller : Address}
    (h : removeController out env s w p caller controller = .ok s') :
    ∃ rec, OwnerActs out env s w p caller rec ∧ (s' = s ∨
      s' = { s with parent := s.parent.set p { rec with controllers := rec.controllers.erase controller } }) := by
  simp only [removeController, bind_eq_ok, requireAuth_eq_ok, getParent_eq_ok, require_eq_ok,
    exists_const] at h
  obtain ⟨hauth, rec, ⟨hactive, hrec⟩, howner, h⟩ := h
  refine ⟨rec, ⟨hauth, hactive, hrec, howner⟩, ?_⟩
  split at h
  · exact Or.inr (pure_eq_ok.mp h).symm
  · exact Or.inl (pure_eq_ok.mp h).symm

/-- The parent record admits the signed caller, and the parent is active. -/
structure Admitted (out : Outside ω) (env : Env) (s : State) (w : ω) (p : Bytes) (caller : Address)
    (rec : ParentDomain) : Prop where
  signed : env.Authorises caller
  active : ParentActive out env s w p
  found  : s.parent p = some rec
  admits : rec.Admits caller

theorem OwnerActs.admitted (h : OwnerActs out env s w p caller rec) :
    Admitted out env s w p caller rec :=
  ⟨h.signed, h.active, h.found, Or.inl h.owner⟩

/-- **A committed `create`**: the caller was admitted, and the name was free. -/
theorem create_ok {label fqdn : Bytes} {owner : Address} {nowUnix : UInt64}
    (h : create out env s w label p caller owner nowUnix = .ok (s', fqdn)) :
    (∃ rec, Admitted out env s w p caller rec) ∧ fqdn = label ++ dot :: p ∧ s.subdomain fqdn = none ∧
      s' = addOwnerSubdomain (addParentSubdomain
        { s with subdomain := s.subdomain.set fqdn ⟨p, owner, nowUnix⟩ } p fqdn) owner fqdn := by
  simp only [create, bind_eq_ok, requireAuth_eq_ok, getParent_eq_ok, require_eq_ok, bufferSlice_eq_ok,
    pure_eq_ok, Prod.mk.injEq, exists_const] at h
  obtain ⟨hauth, rec, ⟨hactive, hrec⟩, hadmits, _, _, _, _, hfresh, rfl, rfl⟩ := h
  exact ⟨⟨rec, hauth, hactive, hrec, hadmits⟩, rfl, hfresh, rfl⟩

/-- **A committed `transfer`**: the record changed its owner. -/
theorem transfer_ok {fqdn : Bytes} {newOwner : Address}
    (h : transfer out env s w fqdn caller newOwner = .ok s') :
    ∃ record, s.subdomain fqdn = some record ∧
      s' = addOwnerSubdomain (removeOwnerSubdomain
        { s with subdomain := s.subdomain.set fqdn { record with owner := newOwner } } record.owner fqdn)
        newOwner fqdn := by
  simp only [transfer, bind_eq_ok, requireAuth_eq_ok, getSubdomain_eq_ok, requireActive_eq_ok,
    require_eq_ok, pure_eq_ok, exists_const] at h
  obtain ⟨_, record, hrecord, _, _, rfl⟩ := h
  exact ⟨record, hrecord, rfl⟩

/-- **A committed `delete`**: the record is gone, and a caller who did not own it was admitted above it. -/
theorem delete_ok {fqdn : Bytes} (h : delete out env s w fqdn caller = .ok s') :
    ∃ record, s.subdomain fqdn = some record ∧ s' = purgeSubdomainRecord s fqdn record ∧
      (record.owner ≠ caller → ∃ rec, Admitted out env s w record.parent caller rec) := by
  simp only [delete, bind_eq_ok, requireAuth_eq_ok, getSubdomain_eq_ok, requireActive_eq_ok,
    exists_const] at h
  obtain ⟨hauth, record, hrecord, hactive, h⟩ := h
  -- on the parent's authority or on the owner's, the same record goes
  split at h
  · simp only [bind_eq_ok, getParent_eq_ok, require_eq_ok, pure_eq_ok, exists_const] at h
    obtain ⟨rec, ⟨_, hrec⟩, hadmits, rfl⟩ := h
    exact ⟨record, hrecord, rfl, fun _ => ⟨rec, hauth, hactive, hrec, hadmits⟩⟩
  · rename_i howner
    obtain rfl := pure_eq_ok.mp h
    exact ⟨record, hrecord, rfl, fun hne => absurd hne howner⟩

/-- **A committed `revoke`**: the same. -/
theorem revoke_ok {fqdn : Bytes} (h : revoke out env s w fqdn caller = .ok s') :
    ∃ record, s.subdomain fqdn = some record ∧ s' = purgeSubdomainRecord s fqdn record ∧
      (record.owner ≠ caller → ∃ rec, Admitted out env s w record.parent caller rec) := by
  simp only [revoke, bind_eq_ok, requireAuth_eq_ok, getSubdomain_eq_ok, requireActive_eq_ok,
    require_eq_ok, pure_eq_ok, exists_const] at h
  obtain ⟨hauth, record, hrecord, hactive, hallowed, rfl⟩ := h
  refine ⟨record, hrecord, rfl, ?_⟩
  intro hne
  rw [if_neg hne] at hallowed
  -- `revoke` reads the parent itself, and denies if it is not there
  split at hallowed
  · rename_i rec hget
    exact ⟨rec, hauth, hactive, (getParent_eq_ok.mp hget).2, of_decide_eq_true hallowed⟩
  · cases hallowed

/-! ## Every committed invocation -/

/-- The parent on whose authority `caller` would remove a subdomain that is not their own. -/
def overParent (s : State) (fqdn : Bytes) (caller : Address) : Option Bytes :=
  match s.subdomain fqdn with
  | some sub => if sub.owner = caller then none else some sub.parent
  | none     => none

/-- The parent and the caller of a call that uses the authority over a parent. -/
def Call.exercises (s : State) : Call → Option (Bytes × Address)
  | .addController name caller _    => some (name, caller)
  | .removeController name caller _ => some (name, caller)
  | .create _ name caller _ _       => some (name, caller)
  | .delete fqdn caller             => (overParent s fqdn caller).map (fun name => (name, caller))
  | .revoke fqdn caller             => (overParent s fqdn caller).map (fun name => (name, caller))
  | _                               => none

/-- What `delete` and `revoke` have in common: a subdomain's owner, or whoever its parent record admits,
    removes it. -/
def Removes (out : Outside ω) (env : Env) (s s' : State) (w : ω) (fqdn : Bytes) (caller : Address) :
    Prop :=
  ∃ record, s.subdomain fqdn = some record ∧ s'.parent = s.parent ∧
    (record.owner ≠ caller → ∃ rec, Admitted out env s w record.parent caller rec)

/-- What both of them do is a removal. -/
theorem Removes.of_purge {fqdn : Bytes}
    (h : ∃ record, s.subdomain fqdn = some record ∧ s' = purgeSubdomainRecord s fqdn record ∧
      (record.owner ≠ caller → ∃ rec, Admitted out env s w record.parent caller rec)) :
    Removes out env s s' w fqdn caller := by
  obtain ⟨record, hrecord, rfl, hadmitted⟩ := h
  exact ⟨record, hrecord, rfl, hadmitted⟩

theorem Removes.admitted {fqdn : Bytes} {caller' : Address} (h : Removes out env s s' w fqdn caller')
    (hx : (overParent s fqdn caller').map (fun name => (name, caller')) = some (p, caller)) :
    ∃ rec, Admitted out env s w p caller rec := by
  obtain ⟨sub, hsub, _, hadmitted⟩ := h
  obtain ⟨name, hname, hpair⟩ := Option.map_eq_some_iff.mp hx
  obtain ⟨rfl, rfl⟩ := Prod.mk.inj hpair
  simp only [overParent, hsub] at hname
  split at hname
  · cases hname
  · rename_i hne
    obtain rfl := Option.some.inj hname
    exact hadmitted hne

/-- **Whoever uses the authority over a parent signed, and is admitted by its record.** -/
theorem step_exercises {c : Call} (h : step out w s ⟨env, c⟩ = .ok s')
    (hx : c.exercises s = some (p, caller)) : ∃ rec, Admitted out env s w p caller rec := by
  cases c with
  | addController name caller' controller =>
      obtain ⟨rfl, rfl⟩ : name = p ∧ caller' = caller := Prod.mk.inj (Option.some.inj hx)
      obtain ⟨rec, hacts, _⟩ := addController_ok h
      exact ⟨rec, hacts.admitted⟩
  | removeController name caller' controller =>
      obtain ⟨rfl, rfl⟩ : name = p ∧ caller' = caller := Prod.mk.inj (Option.some.inj hx)
      obtain ⟨rec, hacts, _⟩ := removeController_ok h
      exact ⟨rec, hacts.admitted⟩
  | create label name caller' owner nowUnix =>
      obtain ⟨rfl, rfl⟩ : name = p ∧ caller' = caller := Prod.mk.inj (Option.some.inj hx)
      obtain ⟨⟨s₁, fqdn⟩, hcreate, _⟩ := bind_eq_ok.mp h
      exact (create_ok hcreate).1
  | delete fqdn caller' => exact (Removes.of_purge (delete_ok h)).admitted hx
  | revoke fqdn caller' => exact (Removes.of_purge (revoke_ok h)).admitted hx
  | _ => cases hx

/-- An edited record: its owner stays, and the one controller it may gain is the one its owner added. -/
def EditedBy (c : Call) (p : Bytes) (rec rec' : ParentDomain) : Prop :=
  rec'.owner = rec.owner ∧
    ∀ a ∈ rec'.controllers, a ∈ rec.controllers ∨ c = .addController p rec.owner a

theorem EditedBy.refl (c : Call) (p : Bytes) (rec : ParentDomain) : EditedBy c p rec rec :=
  ⟨rfl, fun _ => Or.inl⟩

/-- **Where a parent record comes from**: `register_parent` wrote it, or it is an old one, perhaps edited. -/
inductive Origin (out : Outside ω) (env : Env) (s : State) (w : ω) (c : Call) (p : Bytes)
    (rec' : ParentDomain) : Prop
  | registered (hcall : c = .registerParent p rec'.owner) (hnone : rec'.controllers = [])
      (howns : RegistryOwns out env s w p rec'.owner)
  | kept {rec : ParentDomain} (hcall : ∀ owner, c ≠ .registerParent p owner)
      (hrec : s.parent p = some rec) (hedit : EditedBy c p rec rec')

theorem Origin.old {c : Call} (hcall : ∀ owner, c ≠ .registerParent p owner) (hrec : s.parent p = some rec) :
    Origin out env s w c p rec :=
  .kept hcall hrec (EditedBy.refl c p rec)

/-- The record of `name` was rewritten by its owner, the others are as they were. -/
theorem Origin.of_set {c : Call} {name : Bytes} {edited : ParentDomain}
    (hcall : ∀ owner, c ≠ .registerParent p owner) (hset : s'.parent = s.parent.set name edited)
    (hrec : s.parent name = some rec) (hedit : EditedBy c name rec edited) (hp : s'.parent p = some rec') :
    Origin out env s w c p rec' := by
  rw [hset] at hp
  rcases Store.set_eq_some.mp hp with ⟨rfl, rfl⟩ | ⟨_, hp⟩
  · exact .kept hcall hrec hedit
  · exact .old hcall hp

/-- Where the record of a parent comes from after `register_parent`. -/
theorem registerParent_origin {name : Bytes} {owner : Address}
    (h : registerParent out env s w name owner = .ok s') (hp : s'.parent p = some rec') :
    Origin out env s w (.registerParent name owner) p rec' := by
  obtain ⟨_, howns, s₁, hs₁, rfl⟩ := registerParent_ok h
  have hfrom : ParentsFrom s s₁ := by
    rcases hs₁ with ⟨rfl, _⟩ | rfl
    · exact ParentsFrom.of_eq rfl
    · exact parentsFrom_purge s name
  rcases Store.set_eq_some.mp hp with ⟨rfl, rfl⟩ | ⟨hn, hp⟩
  · exact .registered rfl rfl howns
  · -- another name is registered: the record of `p` is an old one
    have hcall : ∀ owner', Call.registerParent name owner ≠ .registerParent p owner' := by
      intro owner' hc
      injection hc with hname
      exact hn hname.symm
    exact .old hcall (hfrom p rec' hp)

/-- After `add_controller`. -/
theorem addController_origin {name : Bytes} {controller : Address}
    (h : addController out env s w name caller controller = .ok s') (hp : s'.parent p = some rec') :
    Origin out env s w (.addController name caller controller) p rec' := by
  have hcall : ∀ owner, Call.addController name caller controller ≠ .registerParent p owner := by
    intro owner hc
    cases hc
  obtain ⟨rec, hacts, rfl | rfl⟩ := addController_ok h
  · exact .old hcall hp
  · have hedit : EditedBy (.addController name caller controller) name rec
        { rec with controllers := rec.controllers ++ [controller] } := by
      refine ⟨rfl, ?_⟩
      intro a ha
      rcases List.mem_append.mp ha with ha | ha
      · exact Or.inl ha
      · obtain rfl := List.mem_singleton.mp ha
        exact Or.inr (by rw [hacts.owner])
    exact .of_set hcall rfl hacts.found hedit hp

/-- After `remove_controller`. -/
theorem removeController_origin {name : Bytes} {controller : Address}
    (h : removeController out env s w name caller controller = .ok s') (hp : s'.parent p = some rec') :
    Origin out env s w (.removeController name caller controller) p rec' := by
  have hcall : ∀ owner, Call.removeController name caller controller ≠ .registerParent p owner := by
    intro owner hc
    cases hc
  obtain ⟨rec, hacts, rfl | rfl⟩ := removeController_ok h
  · exact .old hcall hp
  · have hedit : EditedBy (.removeController name caller controller) name rec
        { rec with controllers := rec.controllers.erase controller } := by
      refine ⟨rfl, ?_⟩
      intro a ha
      exact Or.inl (List.mem_of_mem_erase ha)
    exact .of_set hcall rfl hacts.found hedit hp

/-- The calls that touch no namespace. -/
def Call.administers : Call → Bool
  | .initializeContract .. | .setRegistryContract .. | .setMaxDepth .. | .upgrade => true
  | _ => false

/-- Parents, subdomains and lists of two states are the same. -/
structure SameNamespaces (s s' : State) : Prop where
  parent           : s'.parent = s.parent
  subdomain        : s'.subdomain = s.subdomain
  parentSubdomains : s'.parentSubdomains = s.parentSubdomains
  ownerSubdomains  : s'.ownerSubdomains = s.ownerSubdomains

/-- Administration leaves the namespaces. -/
theorem step_administers {c : Call} (hc : c.administers = true) (h : step out w s ⟨env, c⟩ = .ok s') :
    SameNamespaces s s' := by
  cases c with
  | initializeContract admin =>
      simp only [step, initializeContract, bind_eq_ok, pure_eq_ok] at h
      obtain ⟨_, _, rfl⟩ := h
      exact ⟨rfl, rfl, rfl, rfl⟩
  | setRegistryContract registryContract =>
      simp only [step, setRegistryContract, bind_eq_ok, pure_eq_ok] at h
      obtain ⟨_, _, _, _, rfl⟩ := h
      exact ⟨rfl, rfl, rfl, rfl⟩
  | setMaxDepth depth =>
      simp only [step, setMaxDepth, bind_eq_ok, pure_eq_ok] at h
      obtain ⟨_, _, _, _, rfl⟩ := h
      exact ⟨rfl, rfl, rfl, rfl⟩
  | upgrade =>
      simp only [step, upgrade, bind_eq_ok, pure_eq_ok] at h
      obtain ⟨_, _, _, _, rfl⟩ := h
      exact ⟨rfl, rfl, rfl, rfl⟩
  | _ => cases hc

/-- The calls that write parent records; the others can only purge some. -/
def Call.writesParents : Call → Bool
  | .registerParent .. | .addController .. | .removeController .. => true
  | _ => false

/-- **Calls that write no parent record add none.** -/
theorem step_parentsFrom {c : Call} (hc : c.writesParents = false)
    (h : step out w s ⟨env, c⟩ = .ok s') : ParentsFrom s s' := by
  cases c with
  | registerParent | addController | removeController => cases hc
  | initializeContract | setRegistryContract | setMaxDepth | upgrade =>
      exact ParentsFrom.of_eq (step_administers rfl h).parent
  | create label name caller owner nowUnix =>
      obtain ⟨⟨s₁, fqdn⟩, hcreate, hs₁⟩ := bind_eq_ok.mp h
      obtain rfl := pure_eq_ok.mp hs₁
      obtain ⟨_, _, _, rfl⟩ := create_ok hcreate
      exact ParentsFrom.of_eq rfl
  | transfer fqdn caller newOwner =>
      obtain ⟨_, _, rfl⟩ := transfer_ok h
      exact ParentsFrom.of_eq rfl
  | delete fqdn caller =>
      obtain ⟨_, _, rfl, _⟩ := delete_ok h
      exact ParentsFrom.of_eq rfl
  | revoke fqdn caller =>
      obtain ⟨_, _, rfl, _⟩ := revoke_ok h
      exact ParentsFrom.of_eq rfl
  -- the queries purge what they find inactive
  | parent name =>
      obtain rfl := pure_eq_ok.mp h
      exact parentsFrom_parent out env s w name
  | record fqdn =>
      obtain rfl := pure_eq_ok.mp h
      exact parentsFrom_record out env s w fqdn
  | existsRecord fqdn =>
      obtain rfl := pure_eq_ok.mp h
      exact parentsFrom_record out env s w fqdn
  | subdomainsForParent name =>
      obtain rfl := pure_eq_ok.mp h
      exact parentsFrom_subdomainsForParent out env s w name

/-- **Every parent record after a committed invocation has an origin.** -/
theorem step_parent {c : Call} (h : step out w s ⟨env, c⟩ = .ok s') (hp : s'.parent p = some rec') :
    Origin out env s w c p rec' := by
  cases c with
  | registerParent name owner => exact registerParent_origin h hp
  | addController name caller controller => exact addController_origin h hp
  | removeController name caller controller => exact removeController_origin h hp
  | _ => exact .old (fun _ hc => by cases hc) (step_parentsFrom rfl h p rec' hp)

end XlmNs.Subdomain
