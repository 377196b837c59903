import XlmNs.Subdomain.Correctness.Indexes

/-!
# `Subdomain.Without` — the contract with one namespace gone

`without p s` is the storage with the record, the list and the subdomains of `p` taken out of the three indexes;
nothing else tells it from `s`. A purge is exactly that (`Tidy.purge_eq`), and so is the only thing a query ever
writes. `Notices` says of a call that its answer betrays the loss; every other call does on `without p s` what it does
on `s` (`step_without`), and answers the same (`answer_without`).
-/

namespace XlmNs.Subdomain

open Soroban

variable {ω : Type} {out : Outside ω} {env : Env} {s s' : State} {w : ω}
variable {p q fqdn : Bytes} {record : SubdomainRecord} {caller : Address}

/-! ## A namespace taken out -/

/-- The subdomains recorded under `p`. -/
def under (m : Store Bytes SubdomainRecord) (p fqdn : Bytes) : Bool := (m fqdn).any (fun record => record.parent = p)

/-- The storage without the namespace of `p`. -/
def without (p : Bytes) (s : State) : State :=
  { s with
    parent           := s.parent.remove p
    subdomain        := s.subdomain.hide (under s.subdomain p)
    parentSubdomains := s.parentSubdomains.remove p
    ownerSubdomains  := s.ownerSubdomains.prune (under s.subdomain p) }

theorem under_eq_true {m : Store Bytes SubdomainRecord} :
    under m p fqdn = true ↔ ∃ record, m fqdn = some record ∧ record.parent = p := by
  unfold under
  cases m fqdn with
  | none => simp
  | some record => simp

theorem under_of_some {m : Store Bytes SubdomainRecord} (h : m fqdn = some record) :
    under m p fqdn = decide (record.parent = p) := by
  rw [under, h]
  rfl

theorem under_of_none {m : Store Bytes SubdomainRecord} (h : m fqdn = none) : under m p fqdn = false := by
  rw [under, h]
  rfl

/-- Writing a subdomain of another parent. -/
theorem under_set {m : Store Bytes SubdomainRecord} (h : under m p fqdn = false) (hp : record.parent ≠ p) :
    under (m.set fqdn record) p = under m p := by
  funext other
  by_cases hother : other = fqdn
  · subst hother
    rw [h, under_of_some (Store.set_self _ _ _), decide_eq_false hp]
  · simp only [under, Store.set_ne _ _ hother]

theorem under_remove {m : Store Bytes SubdomainRecord} (h : under m p fqdn = false) :
    under (m.remove fqdn) p = under m p := by
  funext other
  by_cases hother : other = fqdn
  · subst hother
    rw [h, under_of_none (Store.remove_self _ _)]
  · simp only [under, Store.remove_ne _ hother]

theorem under_hide (m : Store Bytes SubdomainRecord) (hidden : Bytes → Bool) (p fqdn : Bytes) :
    under (m.hide hidden) p fqdn = (under m p fqdn && !hidden fqdn) := by
  unfold under Store.hide
  cases hidden fqdn <;> simp

/-- Another namespace has the same subdomains once one is taken out. -/
theorem under_without (s : State) (h : q ≠ p) :
    under (s.subdomain.hide (under s.subdomain p)) q = under s.subdomain q := by
  funext fqdn
  rw [under_hide]
  cases hs : s.subdomain fqdn with
  | none => rw [under_of_none hs, Bool.false_and]
  | some record =>
      rw [under_of_some hs, under_of_some hs]
      by_cases hq : record.parent = q
      · simp [hq, h]
      · simp [hq]

/-- Taking out two namespaces, in either order. -/
theorem without_comm (p q : Bytes) (s : State) : without p (without q s) = without q (without p s) := by
  by_cases hpq : p = q
  · rw [hpq]
  · have hor : (fun fqdn => under s.subdomain p fqdn || under s.subdomain q fqdn)
        = (fun fqdn => under s.subdomain q fqdn || under s.subdomain p fqdn) :=
      funext (fun _ => Bool.or_comm _ _)
    unfold without
    simp only [under_without s hpq, under_without s (Ne.symm hpq), Store.hide_hide, Index.prune_prune, hor,
      Store.remove_comm _ q p]

theorem without_without (p : Bytes) (s : State) : without p (without p s) = without p s := by
  have hgone : ∀ fqdn, under (s.subdomain.hide (under s.subdomain p)) p fqdn = false := by
    intro fqdn
    rw [under_hide, Bool.and_not_self]
  have hprune : ∀ idx : Index Address Bytes, idx.prune (fun _ => false) = idx := fun idx =>
    funext (fun _ => Index.prune_kept (fun _ _ => rfl))
  unfold without
  simp only [funext hgone, Store.hide_none _ (fun _ => rfl), hprune, Store.remove_absent (Store.remove_self _ _)]

/-! ## A purge takes the namespace out -/

/-- **Records, lists and parents agree**, and only a registered parent has a list. -/
structure Tidy (s : State) : Prop extends Indexed s where
  bare : ∀ p, s.parent p = none → s.parentSubdomains p = none

theorem tidy_empty : Tidy State.empty := ⟨indexed_empty, fun _ _ => rfl⟩

/-- The storage without some subdomains. -/
def dropping (gone : Bytes → Bool) (s : State) : State :=
  { s with
    subdomain        := s.subdomain.hide gone
    parentSubdomains := s.parentSubdomains.prune gone
    ownerSubdomains  := s.ownerSubdomains.prune gone }

theorem dropping_dropping (gone gone' : Bytes → Bool) (s : State) :
    dropping gone (dropping gone' s) = dropping (fun fqdn => gone fqdn || gone' fqdn) s := by
  simp only [dropping, Store.hide_hide, Index.prune_prune]

/-- Dropping what is not there changes nothing. -/
theorem Indexed.dropping_absent (h : Indexed s) {gone : Bytes → Bool}
    (habsent : ∀ fqdn record, s.subdomain fqdn = some record → gone fqdn = false) : dropping gone s = s := by
  have hsub : s.subdomain.hide gone = s.subdomain := by
    funext fqdn
    cases hs : s.subdomain fqdn with
    | none => simp [Store.hide, hs]
    | some record => rw [Store.hide_of_shown _ (habsent fqdn record hs), hs]
  -- what a list names is stored, so nothing on it is dropped
  have hlists : s.parentSubdomains.prune gone = s.parentSubdomains := by
    refine funext fun q => Index.prune_kept fun fqdn hfqdn => ?_
    obtain ⟨record, hrecord, _⟩ := (h.listed.mem_iff q fqdn).mp hfqdn
    exact habsent fqdn record hrecord
  have howners : s.ownerSubdomains.prune gone = s.ownerSubdomains := by
    refine funext fun o => Index.prune_kept fun fqdn hfqdn => ?_
    obtain ⟨record, hrecord, _⟩ := (h.owned.mem_iff o fqdn).mp hfqdn
    exact habsent fqdn record hrecord
  simp only [dropping, hsub, hlists, howners]

/-- One turn of the purging loop. -/
theorem Indexed.purgeListed_eq (h : Indexed s) (fqdn : Bytes) :
    Subdomain.purgeListed s fqdn = dropping (fun other => decide (other = fqdn)) s := by
  unfold Subdomain.purgeListed
  cases hs : s.subdomain fqdn with
  | none =>
      refine (h.dropping_absent ?_).symm
      intro other record hrecord
      rw [decide_eq_false_iff_not]
      rintro rfl
      cases hs.symm.trans hrecord
  | some record =>
      have hsub : s.subdomain.remove fqdn = s.subdomain.hide (fun other => decide (other = fqdn)) := by
        funext other
        rw [Store.remove_apply]
        by_cases hother : other = fqdn <;> simp [Store.hide, hother]
      simp only [purgeSubdomainRecord, removeOwnerSubdomain, removeParentSubdomain, dropping, hsub,
        h.listed.eraseFirst_eq_prune hs, h.owned.eraseFirst_eq_prune hs]

theorem Indexed.foldl_eq (h : Indexed s) (fqdns : List Bytes) :
    fqdns.foldl Subdomain.purgeListed s = dropping (fun fqdn => decide (fqdn ∈ fqdns)) s := by
  -- on the list; what one turn drops and what the rest drops is dropped together
  induction fqdns generalizing s with
  | nil => exact (h.dropping_absent (fun _ _ _ => by simp)).symm
  | cons fqdn fqdns ih =>
      rw [List.foldl_cons, ih (h.purgeListed fqdn), h.purgeListed_eq fqdn, dropping_dropping]
      congr 1
      funext other
      simp [Bool.or_comm]

/-- **A purge takes out the namespace.** -/
theorem Indexed.purge_eq (h : Indexed s) (p : Bytes) : Subdomain.purgeParentNamespace s p = without p s := by
  have hgone : (fun fqdn => decide (fqdn ∈ getParentSubdomains s p)) = under s.subdomain p := by
    funext fqdn
    rw [Bool.eq_iff_iff, decide_eq_true_iff, under_eq_true]
    exact h.listed.mem_iff p fqdn
  -- the loop shortens the list of `p` only, which goes altogether
  have hlists : Store.remove (s.parentSubdomains.prune (under s.subdomain p)) p = s.parentSubdomains.remove p := by
    funext q
    by_cases hq : q = p
    · rw [hq, Store.remove_self, Store.remove_self]
    · rw [Store.remove_ne _ hq, Store.remove_ne _ hq]
      refine Index.prune_kept fun fqdn hfqdn => ?_
      obtain ⟨record, hrecord, hparent⟩ := (h.listed.mem_iff q fqdn).mp hfqdn
      rw [under_of_some hrecord, decide_eq_false_iff_not, hparent]
      exact hq
  unfold Subdomain.purgeParentNamespace without
  rw [h.foldl_eq, hgone]
  simp only [dropping, hlists]

/-- Where there is no parent record there is no namespace. -/
theorem Tidy.without_absent (h : Tidy s) (hnone : s.parent p = none) : without p s = s := by
  -- a subdomain would have its parent on record
  have hgone : ∀ fqdn record, s.subdomain fqdn = some record → under s.subdomain p fqdn = false := by
    intro fqdn record hrecord
    rw [under_of_some hrecord, decide_eq_false_iff_not]
    rintro rfl
    obtain ⟨rec, hrec⟩ := h.parent fqdn record hrecord
    cases hnone.symm.trans hrec
  have hdropped : dropping (under s.subdomain p) s = s := h.toIndexed.dropping_absent hgone
  have hsub : s.subdomain.hide (under s.subdomain p) = s.subdomain := congrArg State.subdomain hdropped
  have howners : s.ownerSubdomains.prune (under s.subdomain p) = s.ownerSubdomains :=
    congrArg State.ownerSubdomains hdropped
  simp only [without, hsub, howners, Store.remove_absent hnone, Store.remove_absent (h.bare p hnone)]

/-! ## Every call keeps the storage tidy -/

theorem Tidy.without (h : Tidy s) (p : Bytes) : Tidy (without p s) := by
  have hindexed := h.toIndexed.purgeParentNamespace p
  rw [h.toIndexed.purge_eq] at hindexed
  refine ⟨hindexed, fun q hq => ?_⟩
  show s.parentSubdomains.remove p q = none
  by_cases hqp : q = p
  · rw [hqp, Store.remove_self]
  · rw [Store.remove_ne _ hqp]
    exact h.bare q ((Store.remove_ne _ hqp).symm.trans hq)

/-- A parent record is written, the lists are not. -/
theorem Tidy.putParent (h : Tidy s) {rec : ParentDomain} (hbase : validateBaseNameSoroban p = .ok ()) :
    Tidy { s with parent := s.parent.set p rec } := by
  refine ⟨h.toIndexed.putParent hbase, fun q hq => ?_⟩
  have hset : s.parent.set p rec q = none := hq
  by_cases hqp : q = p
  · rw [hqp, Store.set_self] at hset
    cases hset
  · exact h.bare q ((Store.set_ne _ _ hqp).symm.trans hset)

/-- Only the list of a parent on record is written. -/
theorem Tidy.of_list (h : Tidy s) (hindexed : Indexed s') (hparent : s'.parent = s.parent)
    (hlists : ∀ q, s.parent q = none → s'.parentSubdomains q = s.parentSubdomains q) : Tidy s' := by
  refine ⟨hindexed, fun q hq => ?_⟩
  rw [hparent] at hq
  rw [hlists q hq]
  exact h.bare q hq

theorem Tidy.purgeRecord (h : Tidy s) (hrecord : s.subdomain fqdn = some record) :
    Tidy (purgeSubdomainRecord s fqdn record) := by
  refine h.of_list (h.toIndexed.purgeRecord hrecord) rfl fun q hq => ?_
  obtain ⟨rec, hrec⟩ := h.parent fqdn record hrecord
  have hother : q ≠ record.parent := by
    rintro rfl
    cases hq.symm.trans hrec
  exact Index.eraseFirst_ne _ _ hother

theorem Tidy.ensureParentIsActive (h : Tidy s) (out : Outside ω) (env : Env) (w : ω) (p : Bytes) :
    Tidy (ensureParentIsActive out env s w p).1 := by
  unfold Subdomain.ensureParentIsActive
  split
  · exact h
  · split
    · exact h
    · rw [h.toIndexed.purge_eq]
      exact h.without p

/-- What the query for one record writes is what the check for an active parent writes. -/
theorem Tidy.record_state (h : Tidy s) (out : Outside ω) (env : Env) (w : ω) (fqdn : Bytes) :
    (Subdomain.record out env s w fqdn).1
      = match s.subdomain fqdn with
        | some record => (Subdomain.ensureParentIsActive out env s w record.parent).1
        | none        => s := by
  unfold Subdomain.record
  cases hrecord : s.subdomain fqdn with
  | none => rfl
  | some record =>
      simp only
      cases hactive : Subdomain.ensureParentIsActive out env s w record.parent with
      | mk s₁ active =>
          cases active with
          | true => rfl
          | false =>
              have hs₁ : s₁ = Subdomain.without record.parent s :=
                (ensureParentIsActive_false hactive).trans (h.toIndexed.purge_eq record.parent)
              -- the check took the record out already, and purging it again finds nothing
              have hgone : s₁.subdomain fqdn = none := by
                rw [hs₁]
                exact Store.hide_of_hidden _ (under_eq_true.mpr ⟨record, hrecord, rfl⟩)
              have htidy : Tidy s₁ := hs₁ ▸ h.without record.parent
              exact htidy.toIndexed.purged_twice hgone record

/-- **Every committed call keeps the storage tidy.** -/
theorem preserves_tidy (out : Outside ω) : Preserves (inWorlds (step out)) Tidy := by
  rintro s ⟨w, env, c⟩ s' h hok
  have hindexed : Indexed s' := preserves_indexed out s ⟨w, env, c⟩ s' h.toIndexed hok
  cases c with
  | initializeContract | setRegistryContract | setMaxDepth | upgrade =>
      have hsame : SameNamespaces s s' := step_administers rfl hok
      exact h.of_list hindexed hsame.parent (fun q _ => congrFun hsame.parentSubdomains q)
  | registerParent p owner =>
      obtain ⟨hbase, _, s₁, hs₁, rfl⟩ := registerParent_ok hok
      rcases hs₁ with ⟨rfl, _⟩ | rfl
      · exact h.putParent hbase
      · rw [h.toIndexed.purge_eq]
        exact (h.without p).putParent hbase
  | addController p caller controller =>
      obtain ⟨rec, hacts, rfl | rfl⟩ := addController_ok hok
      · exact h
      · exact h.putParent (h.base p rec hacts.found)
  | removeController p caller controller =>
      obtain ⟨rec, hacts, rfl | rfl⟩ := removeController_ok hok
      · exact h
      · exact h.putParent (h.base p rec hacts.found)
  | create label p caller owner nowUnix =>
      obtain ⟨⟨s₁, fqdn⟩, hcreate, hs₁⟩ := bind_eq_ok.mp hok
      obtain rfl := pure_eq_ok.mp hs₁
      obtain ⟨⟨rec, hadmitted⟩, _, _, rfl⟩ := create_ok hcreate
      refine h.of_list hindexed rfl fun q hq => ?_
      have hother : q ≠ p := by
        rintro rfl
        cases hq.symm.trans hadmitted.found
      exact Index.push_ne _ _ hother
  | transfer fqdn caller newOwner =>
      obtain ⟨record, hrecord, rfl⟩ := transfer_ok hok
      exact h.of_list hindexed rfl fun _ _ => rfl
  | delete fqdn caller =>
      obtain ⟨record, hrecord, rfl, _⟩ := delete_ok hok
      exact h.purgeRecord hrecord
  | revoke fqdn caller =>
      obtain ⟨record, hrecord, rfl, _⟩ := revoke_ok hok
      exact h.purgeRecord hrecord
  | parent name =>
      obtain rfl := pure_eq_ok.mp hok
      rw [parent_state]
      exact h.ensureParentIsActive out env w name
  | record fqdn | existsRecord fqdn =>
      obtain rfl := pure_eq_ok.mp hok
      show Tidy (Subdomain.record out env s w fqdn).1
      rw [h.record_state]
      split
      · exact h.ensureParentIsActive out env w _
      · exact h
  | subdomainsForParent name =>
      obtain rfl := pure_eq_ok.mp hok
      rw [subdomainsForParent_state]
      exact h.ensureParentIsActive out env w name

/-! ## Writes next to the namespace -/

theorem without_putParent (h : q ≠ p) (rec : ParentDomain) (s : State) :
    without p { s with parent := s.parent.set q rec }
      = { without p s with parent := (without p s).parent.set q rec } := by
  simp only [without, Store.remove_set_ne _ _ h]

theorem Indexed.without_purge (h : Indexed s) (p q : Bytes) :
    Subdomain.purgeParentNamespace (without p s) q = without p (Subdomain.purgeParentNamespace s q) := by
  have hindexed : Indexed (without p s) := h.purge_eq p ▸ h.purgeParentNamespace p
  rw [hindexed.purge_eq, h.purge_eq, without_comm]

theorem Indexed.without_purgeRecord (h : Indexed s) (hrecord : s.subdomain fqdn = some record)
    (hp : record.parent ≠ p) :
    purgeSubdomainRecord (without p s) fqdn record = without p (purgeSubdomainRecord s fqdn record) := by
  have hkept : under s.subdomain p fqdn = false := by
    rw [under_of_some hrecord, decide_eq_false hp]
  have hsub : under (s.subdomain.remove fqdn) p = under s.subdomain p := under_remove hkept
  have howner := Index.prune_eraseFirst hkept (h.owned.nodup record.owner)
  have hlist := Index.remove_eraseFirst_ne s.parentSubdomains fqdn hp
  simp only [purgeSubdomainRecord, removeOwnerSubdomain, removeParentSubdomain, without, hsub, howner, hlist,
    Store.hide_remove]

theorem without_insert {owner : Address} {nowUnix : UInt64} (hfresh : s.subdomain fqdn = none) (hq : q ≠ p) :
    without p (addOwnerSubdomain (addParentSubdomain
        { s with subdomain := s.subdomain.set fqdn ⟨q, owner, nowUnix⟩ } q fqdn) owner fqdn)
      = addOwnerSubdomain (addParentSubdomain
          { without p s with subdomain := (without p s).subdomain.set fqdn ⟨q, owner, nowUnix⟩ } q fqdn) owner
          fqdn := by
  have hkept : under s.subdomain p fqdn = false := under_of_none hfresh
  have hsub : under (s.subdomain.set fqdn ⟨q, owner, nowUnix⟩) p = under s.subdomain p := under_set hkept hq
  have howner := Index.prune_push s.ownerSubdomains owner hkept
  have hlist := Index.remove_push_ne s.parentSubdomains fqdn hq
  simp only [addOwnerSubdomain, addParentSubdomain, without, hsub, howner, hlist, Store.hide_set_shown _ _ hkept]

theorem Indexed.without_move {newOwner : Address} (h : Indexed s) (hrecord : s.subdomain fqdn = some record)
    (hp : record.parent ≠ p) :
    without p (addOwnerSubdomain (removeOwnerSubdomain
        { s with subdomain := s.subdomain.set fqdn { record with owner := newOwner } } record.owner fqdn)
        newOwner fqdn)
      = addOwnerSubdomain (removeOwnerSubdomain
          { without p s with
            subdomain := (without p s).subdomain.set fqdn { record with owner := newOwner } } record.owner fqdn)
          newOwner fqdn := by
  have hkept : under s.subdomain p fqdn = false := by
    rw [under_of_some hrecord, decide_eq_false hp]
  have hsub : under (s.subdomain.set fqdn { record with owner := newOwner }) p = under s.subdomain p :=
    under_set hkept hp
  have hleft := Index.prune_eraseFirst hkept (h.owned.nodup record.owner)
  have hentered := Index.prune_push (s.ownerSubdomains.eraseFirst record.owner fqdn) newOwner hkept
  simp only [addOwnerSubdomain, removeOwnerSubdomain, without, hsub, hentered, hleft, Store.hide_set_shown _ _ hkept]

end XlmNs.Subdomain
