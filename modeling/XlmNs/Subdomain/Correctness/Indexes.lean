import XlmNs.Soroban.Machine
import XlmNs.Subdomain.Records

/-!
# `Subdomain.Correctness.Indexes` — the two indexes and the records agree

Each subdomain is kept three times: as a record by name, on the list of its parent and on the list of its owner.
`Indexed` says the three agree, that every subdomain has a parent record, and that its name is its label below its
parent. `indexes_exact`: it holds after any calls, whatever the registries asked say from one call to the next.

A purge walks a copy of the parent's list, so each turn of its loop is the removal of one record that may be gone
already; the query `record` purges once more what the purge of the namespace took (`Indexed.purged_twice`).
-/

namespace XlmNs.Subdomain

open Soroban

variable {ω : Type} {out : Outside ω} {env : Env} {s s' : State} {w : ω}
variable {p fqdn : Bytes} {record : SubdomainRecord}

/-- **Records, lists and parents agree.** -/
structure Indexed (s : State) : Prop where
  /-- the parents' lists are exact and repeat nothing -/
  listed : Listed s
  /-- so are the owners' lists -/
  owned  : Index.Exact s.ownerSubdomains s.subdomain (fun record => record.owner)
  /-- no subdomain without its parent -/
  parent : ∀ fqdn record, s.subdomain fqdn = some record → ∃ rec, s.parent record.parent = some rec
  /-- a subdomain is named by its label and its parent -/
  named  : ∀ fqdn record, s.subdomain fqdn = some record → ∃ label, fqdn = label ++ dot :: record.parent
  /-- parents are base names -/
  base   : ∀ p rec, s.parent p = some rec → validateBaseNameSoroban p = .ok ()

theorem indexed_empty : Indexed State.empty where
  listed := listed_empty
  owned  := Index.Exact.empty _
  parent := by
    intro fqdn record h
    cases h
  named := by
    intro fqdn record h
    cases h
  base := by
    intro p rec h
    cases h

/-! ## Purging -/

theorem Indexed.purgeRecord (h : Indexed s) (hrecord : s.subdomain fqdn = some record) :
    Indexed (purgeSubdomainRecord s fqdn record) where
  listed := h.listed.purgeRecord hrecord
  owned  := h.owned.erase hrecord
  parent := fun other record' hother => h.parent other record' (Store.remove_eq_some.mp hother).2
  named  := fun other record' hother => h.named other record' (Store.remove_eq_some.mp hother).2
  base   := h.base

/-- Purging a subdomain that is gone already changes nothing. -/
theorem Indexed.purged_twice (h : Indexed s) (hnone : s.subdomain fqdn = none) (record : SubdomainRecord) :
    purgeSubdomainRecord s fqdn record = s := by
  simp only [purgeSubdomainRecord, removeOwnerSubdomain, removeParentSubdomain, h.listed.erase_absent hnone,
    h.owned.erase_absent hnone, Store.remove_absent hnone]

theorem Indexed.purgeListed (h : Indexed s) (fqdn : Bytes) : Indexed (purgeListed s fqdn) := by
  unfold Subdomain.purgeListed
  split
  · rename_i hrecord
    exact h.purgeRecord hrecord
  · exact h

theorem Indexed.foldl (h : Indexed s) (fqdns : List Bytes) :
    Indexed (fqdns.foldl Subdomain.purgeListed s) := by
  -- on the list that was read before the loop, while the stored one shrinks
  induction fqdns generalizing s with
  | nil => exact h
  | cons fqdn fqdns ih => exact ih (h.purgeListed fqdn)

/-- After the loop no subdomain of the parent is left, so list and record of the parent may go. -/
theorem Indexed.purgeParentNamespace (h : Indexed s) (p : Bytes) : Indexed (purgeParentNamespace s p) := by
  have hloop := h.foldl (getParentSubdomains s p)
  have hother : ∀ fqdn record, (Subdomain.purgeParentNamespace s p).subdomain fqdn = some record →
      record.parent ≠ p := by
    intro fqdn record hrecord
    exact (h.listed.purged_iff.mp hrecord).2
  constructor
  · exact h.listed.purgeParentNamespace p
  · exact hloop.owned
  · intro fqdn record hrecord
    obtain ⟨rec, hrec⟩ := hloop.parent fqdn record hrecord
    exact ⟨rec, (Store.remove_ne _ (hother fqdn record hrecord)).trans hrec⟩
  · exact hloop.named
  · intro q rec hrec
    exact hloop.base q rec (Store.remove_eq_some.mp hrec).2

theorem Indexed.ensureParentIsActive (h : Indexed s) (out : Outside ω) (env : Env) (w : ω) (p : Bytes) :
    Indexed (ensureParentIsActive out env s w p).1 := by
  unfold Subdomain.ensureParentIsActive
  split
  · exact h
  · split
    · exact h
    · exact h.purgeParentNamespace p

/-- **The query for one record**: what it purges after the namespace is gone with it. -/
theorem Indexed.query (h : Indexed s) (out : Outside ω) (env : Env) (w : ω) (fqdn : Bytes) :
    Indexed (Subdomain.record out env s w fqdn).1 := by
  unfold Subdomain.record
  split
  · exact h
  · rename_i record hrecord
    have hactive := h.ensureParentIsActive out env w record.parent
    split
    · rename_i s₁ heq
      rwa [heq] at hactive
    · rename_i s₁ heq
      rw [heq] at hactive
      -- the namespace went with the check, so the second purge finds nothing
      have hgone : s₁.subdomain fqdn = none := by
        rw [Option.eq_none_iff_forall_ne_some]
        intro record' hrecord'
        rw [ensureParentIsActive_false heq] at hrecord'
        obtain ⟨hold, hother⟩ := h.listed.purged_iff.mp hrecord'
        obtain rfl := Option.some.inj (hrecord.symm.trans hold)
        exact hother rfl
      show Indexed (purgeSubdomainRecord s₁ fqdn record)
      rw [hactive.purged_twice hgone]
      exact hactive

/-! ## The other writes -/

/-- A parent record is written under a base name. -/
theorem Indexed.putParent (h : Indexed s) {rec : ParentDomain} (hbase : validateBaseNameSoroban p = .ok ()) :
    Indexed { s with parent := s.parent.set p rec } where
  listed := h.listed
  owned  := h.owned
  parent := by
    intro fqdn record hrecord
    by_cases hp : record.parent = p
    · exact ⟨rec, by rw [hp]; exact Store.set_self _ _ _⟩
    · obtain ⟨old, hold⟩ := h.parent fqdn record hrecord
      exact ⟨old, (Store.set_ne _ _ hp).trans hold⟩
  named := h.named
  base  := by
    intro q rec' hrec'
    rcases Store.set_eq_some.mp hrec' with ⟨rfl, _⟩ | ⟨_, hold⟩
    · exact hbase
    · exact h.base q rec' hold

/-- A fresh subdomain goes on the list of its parent and of its owner. -/
theorem Indexed.insert (h : Indexed s) {label : Bytes} {owner : Address} {nowUnix : UInt64}
    (hfqdn : fqdn = label ++ dot :: p) (hp : ∃ rec, s.parent p = some rec) (hfresh : s.subdomain fqdn = none) :
    Indexed (addOwnerSubdomain (addParentSubdomain
      { s with subdomain := s.subdomain.set fqdn ⟨p, owner, nowUnix⟩ } p fqdn) owner fqdn) where
  listed := h.listed.insert ⟨p, owner, nowUnix⟩ hfresh
  owned  := h.owned.insert ⟨p, owner, nowUnix⟩ hfresh
  parent := by
    intro other record hrecord
    rcases Store.set_eq_some.mp hrecord with ⟨_, rfl⟩ | ⟨_, hold⟩
    · exact hp
    · exact h.parent other record hold
  named := by
    intro other record hrecord
    rcases Store.set_eq_some.mp hrecord with ⟨rfl, rfl⟩ | ⟨_, hold⟩
    · exact ⟨label, hfqdn⟩
    · exact h.named other record hold
  base := h.base

/-- A subdomain that changes hands leaves one owner's list and enters the other's. -/
theorem Indexed.move (h : Indexed s) {newOwner : Address} (hrecord : s.subdomain fqdn = some record) :
    Indexed (addOwnerSubdomain (removeOwnerSubdomain
      { s with subdomain := s.subdomain.set fqdn { record with owner := newOwner } } record.owner fqdn)
      newOwner fqdn) where
  listed := h.listed.edit hrecord rfl
  owned  := by
    show Index.Exact ((s.ownerSubdomains.eraseFirst record.owner fqdn).push newOwner fqdn)
      (s.subdomain.set fqdn { record with owner := newOwner }) _
    -- writing over the old record is removing it first
    rw [← Store.set_remove]
    exact (h.owned.erase hrecord).insert { record with owner := newOwner } (Store.remove_self _ _)
  parent := by
    intro other record' hrecord'
    rcases Store.set_eq_some.mp hrecord' with ⟨_, rfl⟩ | ⟨_, hold⟩
    · exact h.parent fqdn record hrecord
    · exact h.parent other record' hold
  named := by
    intro other record' hrecord'
    rcases Store.set_eq_some.mp hrecord' with ⟨rfl, rfl⟩ | ⟨_, hold⟩
    · exact h.named other record hrecord
    · exact h.named other record' hold
  base := h.base

theorem Indexed.registerParent {owner : Address} (h : Indexed s)
    (hok : registerParent out env s w p owner = .ok s') : Indexed s' := by
  obtain ⟨hbase, _, s₁, hs₁, rfl⟩ := registerParent_ok hok
  suffices hvacated : Indexed s₁ from hvacated.putParent hbase
  rcases hs₁ with ⟨rfl, _⟩ | rfl
  · exact h
  · exact h.purgeParentNamespace p

/-- The records, lists and parents of two states are the same. -/
theorem Indexed.congr (h : Indexed s) (hparent : s'.parent = s.parent) (hsub : s'.subdomain = s.subdomain)
    (hlist : s'.parentSubdomains = s.parentSubdomains) (howner : s'.ownerSubdomains = s.ownerSubdomains) :
    Indexed s' := by
  obtain ⟨hlisted, howned, hp, hn, hb⟩ := h
  unfold Listed at hlisted
  rw [← hsub] at hlisted howned hp hn
  rw [← hlist] at hlisted
  rw [← howner] at howned
  rw [← hparent] at hp hb
  exact ⟨hlisted, howned, hp, hn, hb⟩

/-! ## Every call -/

/-- **Every committed call keeps records, lists and parents in agreement.** -/
theorem preserves_indexed (out : Outside ω) : Preserves (inWorlds (step out)) Indexed := by
  rintro s ⟨w, env, c⟩ s' h hok
  cases c with
  | initializeContract | setRegistryContract | setMaxDepth | upgrade =>
      have hsame : SameNamespaces s s' := step_administers rfl hok
      exact h.congr hsame.parent hsame.subdomain hsame.parentSubdomains hsame.ownerSubdomains
  | registerParent p owner => exact h.registerParent hok
  | addController p caller controller =>
      obtain ⟨rec, hacts, rfl | rfl⟩ := addController_ok hok
      · exact h
      · exact h.putParent (h.base p rec hacts.found)
  | removeController p caller controller =>
      obtain ⟨rec, hacts, rfl | rfl⟩ := removeController_ok hok
      · exact h
      · exact h.putParent (h.base p rec hacts.found)
  | create label p caller owner nowUnix =>
      obtain ⟨⟨s₁, fqdn⟩, hcreate, hs₁⟩ := bind_eq_ok.mp hok
      obtain rfl := pure_eq_ok.mp hs₁
      obtain ⟨⟨rec, hadmitted⟩, hfqdn, hfresh, rfl⟩ := create_ok hcreate
      exact h.insert hfqdn ⟨rec, hadmitted.found⟩ hfresh
  | transfer fqdn caller newOwner =>
      obtain ⟨record, hrecord, rfl⟩ := transfer_ok hok
      exact h.move hrecord
  | delete fqdn caller =>
      obtain ⟨record, hrecord, rfl, _⟩ := delete_ok hok
      exact h.purgeRecord hrecord
  | revoke fqdn caller =>
      obtain ⟨record, hrecord, rfl, _⟩ := revoke_ok hok
      exact h.purgeRecord hrecord
  | parent name =>
      obtain rfl := pure_eq_ok.mp hok
      rw [parent_state]
      exact h.ensureParentIsActive out env w name
  | record fqdn =>
      obtain rfl := pure_eq_ok.mp hok
      exact h.query out env w fqdn
  | existsRecord fqdn =>
      obtain rfl := pure_eq_ok.mp hok
      exact h.query out env w fqdn
  | subdomainsForParent name =>
      obtain rfl := pure_eq_ok.mp hok
      rw [subdomainsForParent_state]
      exact h.ensureParentIsActive out env w name

/-- **The indexes are exact.** After any calls by anyone, each finding the registries and the rest of the world in
    any state: a name is on the list of a parent iff its record has that parent, on the list of an owner iff its
    record has that owner, no list repeats a name, every record has a parent record, and its name is its label
    below that parent. -/
theorem indexes_exact (out : Outside ω) (ts : List (ω × Tx Call)) :
    let s := run (inWorlds (step out)) State.empty ts
    (∀ p fqdn, fqdn ∈ getParentSubdomains s p ↔ ∃ record, s.subdomain fqdn = some record ∧ record.parent = p) ∧
    (∀ o fqdn, fqdn ∈ getOwnerSubdomains s o ↔ ∃ record, s.subdomain fqdn = some record ∧ record.owner = o) ∧
    (∀ p, (getParentSubdomains s p).Nodup) ∧ (∀ o, (getOwnerSubdomains s o).Nodup) ∧
    (∀ fqdn record, s.subdomain fqdn = some record → ∃ rec, s.parent record.parent = some rec) ∧
    ∀ fqdn record, s.subdomain fqdn = some record → ∃ label, fqdn = label ++ dot :: record.parent := by
  intro s
  have h : Indexed s := (preserves_indexed out).run ts indexed_empty
  exact ⟨h.listed.mem_iff, h.owned.mem_iff, h.listed.nodup, h.owned.nodup, h.parent, h.named⟩

end XlmNs.Subdomain
