import XlmNs.Subdomain.Without

/-!
# `Subdomain.Neutrality` — who notices that a namespace is gone?

`answer` is everything a caller gets back. `Notices … p c` says which calls get back something else once the namespace
of `p` is taken out of the storage: those that find its record, its list or one of its subdomains and go on with it.
For all others `step_without` and `answer_without` hold, and for these `answer_without` fails.
-/

namespace XlmNs.Subdomain

open Soroban

variable {ω : Type} {out : Outside ω} {env : Env} {s s' : State} {w : ω} {p q fqdn : Bytes} {caller : Address}

/-! ## Answers -/

/-- What an invocation returns to its caller. -/
inductive Answer
  | done (r : Result Unit)
  | created (r : Result Bytes)
  | parent (found : Option ParentDomain)
  | record (found : Option SubdomainRecord)
  | found (found : Bool)
  | names (fqdns : List Bytes)
deriving DecidableEq

/-- What a call returns. -/
def answer (out : Outside ω) (env : Env) (s : State) (w : ω) : Call → Answer
  | .create label parent caller owner nowUnix =>
      .created ((create out env s w label parent caller owner nowUnix).map Prod.snd)
  | .parent name => .parent (parent out env s w name).2
  | .record fqdn => .record (record out env s w fqdn).2
  | .existsRecord fqdn => .found (existsRecord out env s w fqdn).2
  | .subdomainsForParent parent => .names (subdomainsForParent out env s w parent).2
  | c => .done ((step out w s ⟨env, c⟩).map (fun _ => ()))

/-- **The call notices that the namespace of `p` is gone**, if it is. -/
def Notices (out : Outside ω) (env : Env) (s : State) (w : ω) (p : Bytes) : Call → Prop
  | .registerParent name owner =>
      name = p ∧ env.Authorises owner ∧ validateFqdnSoroban name = .ok () ∧ RegistryOwns out env s w name owner ∧
        ∃ rec, s.parent name = some rec ∧ rec.owner = owner
  | .addController name caller _ | .removeController name caller _ | .create _ name caller _ _ =>
      name = p ∧ env.Authorises caller ∧ ParentActive out env s w name ∧ ∃ rec, s.parent name = some rec
  | .transfer fqdn caller _ | .delete fqdn caller | .revoke fqdn caller =>
      under s.subdomain p fqdn = true ∧ env.Authorises caller
  | .parent name => name = p ∧ ParentActive out env s w name ∧ ∃ rec, s.parent name = some rec
  | .record fqdn | .existsRecord fqdn => under s.subdomain p fqdn = true ∧ ParentActive out env s w p
  | .subdomainsForParent name => name = p ∧ ParentActive out env s w name ∧ getParentSubdomains s name ≠ []
  | .initializeContract _ | .setRegistryContract _ | .setMaxDepth _ | .upgrade => False

/-! ## Guards -/

/-- Whether a parent is active does not depend on what is stored about it. -/
theorem active_without (p q : Bytes) (s : State) :
    (ensureParentIsActive out env (without p s) w q).2 = (ensureParentIsActive out env s w q).2 := by
  have hreg : (without p s).registryContract = s.registryContract := rfl
  unfold ensureParentIsActive
  rw [hreg]
  split
  · rfl
  · split <;> rfl

/-- Whether a parent is active is asked of the registry. -/
theorem requireActive_without (p q : Bytes) (s : State) :
    requireActive out env (without p s) w q = requireActive out env s w q := by
  unfold requireActive
  rw [active_without]

/-- The other parents are still there. -/
theorem getParent_without (h : q ≠ p) : getParent out env (without p s) w q = getParent out env s w q := by
  have hsame : (without p s).parent q = s.parent q := Store.remove_ne _ h
  unfold getParent
  rw [requireActive_without, hsame]

/-- So are their subdomains. -/
theorem getSubdomain_without (h : under s.subdomain p fqdn = false) :
    getSubdomain (without p s) fqdn = getSubdomain s fqdn := by
  have hsame : (without p s).subdomain fqdn = s.subdomain fqdn := Store.hide_of_shown _ h
  unfold getSubdomain
  rw [hsame]

/-- The parent gone is not found. -/
theorem getParent_gone : getParent out env (without p s) w p = .error (.error .parentNotFound) := by
  have hgone : (without p s).parent p = none := Store.remove_self _ _
  unfold getParent
  rw [hgone]
  unfold requireActive require
  split <;> rfl

/-- A subdomain of the namespace is not. -/
theorem getSubdomain_gone (h : under s.subdomain p fqdn = true) :
    getSubdomain (without p s) fqdn = .error (.error .notFound) := by
  have hgone : (without p s).subdomain fqdn = none := Store.hide_of_hidden _ h
  unfold getSubdomain
  rw [hgone]
  rfl

/-- A parent that is inactive or not on record is not found either. -/
theorem getParent_missing (h : ¬ (ParentActive out env s w p ∧ ∃ rec, s.parent p = some rec)) :
    getParent out env s w p = .error (.error .parentNotFound) := by
  cases hget : getParent out env s w p with
  | ok rec =>
      obtain ⟨hactive, hrec⟩ := getParent_eq_ok.mp hget
      exact absurd ⟨hactive, rec, hrec⟩ h
  | error e =>
      unfold getParent requireActive require at hget
      split at hget
      · cases hp : s.parent p with
        | none =>
            rw [hp] at hget
            exact hget ▸ rfl
        | some rec =>
            rw [hp] at hget
            cases hget
      · exact hget ▸ rfl

/-- **A call that needs the parent** fails alike with the namespace gone unless it is signed, and the parent there. -/
theorem guard_without {α : Type} (h : ¬ (env.Authorises caller ∧ ParentActive out env s w p ∧
      ∃ rec, s.parent p = some rec)) {f g : ParentDomain → Result α} :
    (requireAuth env caller >>= fun _ => getParent out env (without p s) w p >>= f)
      = (requireAuth env caller >>= fun _ => getParent out env s w p >>= g) := by
  by_cases hauth : env.Authorises caller
  · rw [getParent_gone, getParent_missing (fun hparent => h ⟨hauth, hparent⟩)]
    rfl
  · have htrap : (requireAuth env caller : Result Unit) = .error .trap := if_neg hauth
    rw [htrap]
    rfl

/-! ## Calls on other parents and other subdomains -/

theorem vacateParent_without (h : Indexed s) (hne : q ≠ p) {owner : Address} :
    vacateParent out env (without p s) w q owner = (vacateParent out env s w q owner).map (without p) := by
  have hreg : (without p s).registryContract = s.registryContract := rfl
  have hparent : (without p s).parent q = s.parent q := Store.remove_ne _ hne
  unfold vacateParent
  rw [hreg, hparent]
  cases s.registryContract with
  | none => simp only [map_bind_outcome, map_pure_outcome]
  | some registry =>
      simp only [map_bind_outcome]
      refine bind_congr fun entry => bind_congr fun _ => ?_
      cases s.parent q with
      | none => rfl
      | some existing => simp only [map_bind_outcome, map_pure_outcome, h.without_purge]

/-- Another parent is registered all the same. -/
theorem registerParent_without (h : Indexed s) (hne : q ≠ p) {owner : Address} :
    registerParent out env (without p s) w q owner = (registerParent out env s w q owner).map (without p) := by
  simp only [registerParent, map_bind_outcome, vacateParent_without h hne, bind_map_outcome, map_pure_outcome,
    without_putParent hne]

theorem addController_without (hne : q ≠ p) {controller : Address} :
    addController out env (without p s) w q caller controller
      = (addController out env s w q caller controller).map (without p) := by
  simp only [addController, map_bind_outcome, getParent_without hne]
  refine bind_congr fun _ => bind_congr fun rec => bind_congr fun _ => ?_
  split
  · rfl
  · exact congrArg Except.ok (without_putParent hne _ s).symm

theorem removeController_without (hne : q ≠ p) {controller : Address} :
    removeController out env (without p s) w q caller controller
      = (removeController out env s w q caller controller).map (without p) := by
  simp only [removeController, map_bind_outcome, getParent_without hne]
  refine bind_congr fun _ => bind_congr fun rec => bind_congr fun _ => ?_
  split
  · exact congrArg Except.ok (without_putParent hne _ s).symm
  · rfl

/-- A name below another registered parent is no subdomain of `p`. -/
theorem Indexed.not_under (h : Indexed s) {label : Bytes} {rec : ParentDomain} (hrec : s.parent q = some rec)
    (hne : q ≠ p) : under s.subdomain p (label ++ dot :: q) = false := by
  rw [Bool.eq_false_iff]
  intro hunder
  obtain ⟨record, hrecord, rfl⟩ := under_eq_true.mp hunder
  obtain ⟨label', hname⟩ := h.named _ record hrecord
  obtain ⟨rec', hrec'⟩ := h.parent _ record hrecord
  exact hne (base_unique (h.base q rec hrec) (h.base _ rec' hrec') hname)

/-- A subdomain of another parent is created all the same. -/
theorem create_without (h : Indexed s) (hne : q ≠ p) {label : Bytes} {owner : Address} {nowUnix : UInt64} :
    create out env (without p s) w label q caller owner nowUnix
      = (create out env s w label q caller owner nowUnix).map (fun (s, fqdn) => (without p s, fqdn)) := by
  have hdepth : maxDepth (without p s) = maxDepth s := rfl
  simp only [create, map_bind_outcome, getParent_without hne, hdepth]
  -- the parent that was found is on record, so the new name is not under `p`
  refine bind_congr fun _ => bind_congr_outcome fun rec hrec => ?_
  have hkept : under s.subdomain p (label ++ dot :: q) = false := h.not_under (getParent_eq_ok.mp hrec).2 hne
  have hsame : (without p s).subdomain (label ++ dot :: q) = s.subdomain (label ++ dot :: q) :=
    Store.hide_of_shown _ hkept
  simp only [hsame]
  refine bind_congr fun _ => bind_congr fun _ => bind_congr fun _ => bind_congr fun _ => bind_congr fun _ => ?_
  refine bind_congr_outcome fun _ hfresh => ?_
  exact congrArg (fun s => Except.ok (s, label ++ dot :: q)) (without_insert (require_eq_ok.mp hfresh) hne).symm

/-- The record of a subdomain that is not under `p`. -/
theorem parent_ne_of_kept {record : SubdomainRecord} (hkept : under s.subdomain p fqdn = false)
    (hget : getSubdomain s fqdn = .ok record) : record.parent ≠ p := by
  rw [under_of_some (getSubdomain_eq_ok.mp hget)] at hkept
  exact of_decide_eq_false hkept

/-- Another subdomain is handed on all the same. -/
theorem transfer_without (h : Indexed s) (hkept : under s.subdomain p fqdn = false) {newOwner : Address} :
    transfer out env (without p s) w fqdn caller newOwner
      = (transfer out env s w fqdn caller newOwner).map (without p) := by
  simp only [transfer, map_bind_outcome, getSubdomain_without hkept, requireActive_without]
  refine bind_congr fun _ => bind_congr_outcome fun record hget => bind_congr fun _ => bind_congr fun _ => ?_
  exact congrArg Except.ok (h.without_move (getSubdomain_eq_ok.mp hget) (parent_ne_of_kept hkept hget)).symm

/-- Another subdomain is deleted all the same. -/
theorem delete_without (h : Indexed s) (hkept : under s.subdomain p fqdn = false) :
    delete out env (without p s) w fqdn caller = (delete out env s w fqdn caller).map (without p) := by
  simp only [delete, map_bind_outcome, getSubdomain_without hkept, requireActive_without]
  refine bind_congr fun _ => bind_congr_outcome fun record hget => bind_congr fun _ => ?_
  have hne := parent_ne_of_kept hkept hget
  have hpurge : (.ok (purgeSubdomainRecord (without p s) fqdn record) : Result State)
      = .ok (without p (purgeSubdomainRecord s fqdn record)) :=
    congrArg Except.ok (h.without_purgeRecord (getSubdomain_eq_ok.mp hget) hne)
  -- whoever is not the owner needs the parent, which is another one
  split
  · simp only [getParent_without hne, map_bind_outcome]
    exact bind_congr fun _ => bind_congr fun _ => hpurge
  · exact hpurge

/-- And revoked. -/
theorem revoke_without (h : Indexed s) (hkept : under s.subdomain p fqdn = false) :
    revoke out env (without p s) w fqdn caller = (revoke out env s w fqdn caller).map (without p) := by
  simp only [revoke, map_bind_outcome, getSubdomain_without hkept, requireActive_without]
  refine bind_congr fun _ => bind_congr_outcome fun record hget => bind_congr fun _ => ?_
  have hne := parent_ne_of_kept hkept hget
  simp only [getParent_without hne]
  exact bind_congr fun _ =>
    congrArg Except.ok (h.without_purgeRecord (getSubdomain_eq_ok.mp hget) hne)

/-! ## Queries -/

/-- The check for an active parent purges alike with the namespace gone. -/
theorem ensure_without (h : Indexed s) (p q : Bytes) :
    (ensureParentIsActive out env (without p s) w q).1 = without p (ensureParentIsActive out env s w q).1 := by
  have hreg : (without p s).registryContract = s.registryContract := rfl
  unfold ensureParentIsActive
  rw [hreg]
  split
  · rfl
  · split
    · rfl
    · exact h.without_purge p q

/-- Whether the subdomain that is asked for is gone or not, the query for it leaves the same. -/
theorem record_without (h : Tidy s) :
    (record out env (without p s) w fqdn).1 = without p (record out env s w fqdn).1 := by
  rw [(h.without p).record_state, h.record_state]
  cases hunder : under s.subdomain p fqdn with
  | false =>
      have hsame : (without p s).subdomain fqdn = s.subdomain fqdn := Store.hide_of_shown _ hunder
      rw [hsame]
      cases s.subdomain fqdn with
      | none => rfl
      | some record => exact ensure_without h.toIndexed p record.parent
  | true =>
      -- gone already on one side, and on the other purged if its parent is inactive
      have hgone : (without p s).subdomain fqdn = none := Store.hide_of_hidden _ hunder
      obtain ⟨record, hrecord, rfl⟩ := under_eq_true.mp hunder
      rw [hgone, hrecord]
      show without record.parent s = without record.parent (ensureParentIsActive out env s w record.parent).1
      unfold ensureParentIsActive
      split
      · rfl
      · split
        · rfl
        · rw [h.toIndexed.purge_eq, without_without]

theorem active_iff : (ensureParentIsActive out env s w q).2 = true ↔ ParentActive out env s w q := by
  exact require_eq_ok.symm.trans (requireActive_eq_ok (u := ()))

/-- An active parent is left alone. -/
theorem ensure_active (h : (ensureParentIsActive out env s w q).2 = true) :
    (ensureParentIsActive out env s w q).1 = s := by
  unfold ensureParentIsActive at *
  split
  · rfl
  · split
    · rfl
    · rename_i registry hreg hinactive
      simp [hreg, hinactive] at h

/-- What a query about a parent returns. -/
theorem parent_answer (name : Bytes) :
    (parent out env s w name).2 = if (ensureParentIsActive out env s w name).2 then s.parent name else none := by
  unfold parent
  split
  · rename_i s₁ heq
    have hsame : s₁ = s := by
      have := ensure_active (congrArg Prod.snd heq)
      rwa [heq] at this
    rw [heq, hsame]
    rfl
  · rename_i s₁ heq
    rw [heq]
    rfl

/-- What a query for its subdomains returns. -/
theorem subdomainsForParent_answer (name : Bytes) :
    (subdomainsForParent out env s w name).2
      = if (ensureParentIsActive out env s w name).2 then getParentSubdomains s name else [] := by
  unfold subdomainsForParent
  split
  · rename_i s₁ heq
    have hsame : s₁ = s := by
      have := ensure_active (congrArg Prod.snd heq)
      rwa [heq] at this
    rw [heq, hsame]
    rfl
  · rename_i s₁ heq
    rw [heq]
    rfl

/-- What a query about a subdomain returns. -/
theorem record_answer (fqdn : Bytes) :
    (record out env s w fqdn).2
      = (s.subdomain fqdn).filter (fun record => (ensureParentIsActive out env s w record.parent).2) := by
  unfold record
  cases s.subdomain fqdn with
  | none => rfl
  | some record =>
      cases hactive : ensureParentIsActive out env s w record.parent with
      | mk s₁ active => cases active <;> simp [Option.filter_some, hactive]

/-- What a query answers with the namespace gone. -/
theorem record_answer_iff :
    (record out env (without p s) w fqdn).2 = (record out env s w fqdn).2 ↔
      ¬ (under s.subdomain p fqdn = true ∧ ParentActive out env s w p) := by
  rw [record_answer, record_answer]
  simp only [active_without]
  cases hunder : under s.subdomain p fqdn with
  | false =>
      have hsame : (without p s).subdomain fqdn = s.subdomain fqdn := Store.hide_of_shown _ hunder
      rw [hsame]
      simp
  | true =>
      have hgone : (without p s).subdomain fqdn = none := Store.hide_of_hidden _ hunder
      obtain ⟨record, hrecord, rfl⟩ := under_eq_true.mp hunder
      rw [hgone, hrecord, ← active_iff, Option.filter_some]
      cases (ensureParentIsActive out env s w record.parent).2 <;> simp

/-- Whether the record is found: with the namespace gone it is the same one, or none. -/
theorem existsRecord_answer_iff :
    (existsRecord out env (without p s) w fqdn).2 = (existsRecord out env s w fqdn).2 ↔
      ¬ (under s.subdomain p fqdn = true ∧ ParentActive out env s w p) := by
  rw [← record_answer_iff]
  show (record out env (without p s) w fqdn).2.isSome = (record out env s w fqdn).2.isSome ↔ _
  constructor
  · intro hsame
    cases hunder : under s.subdomain p fqdn with
    | false => exact record_answer_iff.mpr (fun hnotice => by simp [hunder] at hnotice)
    | true =>
        -- with the namespace gone nothing is found, so nothing was found before either
        have hgone : (without p s).subdomain fqdn = none := Store.hide_of_hidden _ hunder
        have hnone : (record out env (without p s) w fqdn).2 = none := by
          rw [record_answer, hgone]
          rfl
        rw [hnone, Option.isSome_none] at hsame
        rw [hnone]
        exact (Option.isSome_eq_false_iff.mp hsame.symm |> Option.isNone_iff_eq_none.mp).symm
  · intro hsame
    rw [hsame]

/-- The answer is another one exactly where the namespace had a record and is active. -/
theorem parent_answer_iff :
    (parent out env (without p s) w q).2 = (parent out env s w q).2 ↔
      ¬ (q = p ∧ ParentActive out env s w q ∧ ∃ rec, s.parent q = some rec) := by
  rw [parent_answer, parent_answer, active_without, ← active_iff]
  by_cases hq : q = p
  · subst hq
    have hgone : (without q s).parent q = none := Store.remove_self _ _
    rw [hgone]
    cases (ensureParentIsActive out env s w q).2 <;> cases s.parent q <;> simp
  · have hsame : (without p s).parent q = s.parent q := Store.remove_ne _ hq
    rw [hsame]
    simp [hq]

/-- The same for the list. -/
theorem subdomainsForParent_answer_iff :
    (subdomainsForParent out env (without p s) w q).2 = (subdomainsForParent out env s w q).2 ↔
      ¬ (q = p ∧ ParentActive out env s w q ∧ getParentSubdomains s q ≠ []) := by
  rw [subdomainsForParent_answer, subdomainsForParent_answer, active_without, ← active_iff]
  by_cases hq : q = p
  · subst hq
    have hgone : getParentSubdomains (without q s) q = [] := by
      show (s.parentSubdomains.remove q q).getD [] = []
      rw [Store.remove_self]
      rfl
    rw [hgone]
    cases (ensureParentIsActive out env s w q).2 <;> cases getParentSubdomains s q <;> simp
  · have hsame : getParentSubdomains (without p s) q = getParentSubdomains s q :=
      Index.keys_remove_ne s.parentSubdomains hq
    rw [hsame]
    simp [hq]

/-! ## Registering the parent anew -/

variable {owner : Address} {rec : ParentDomain}

/-- The record of a previous owner is purged if nothing else did. -/
theorem vacateParent_revived (h : Indexed s) (hreg : s.registryContract ≠ none) (hrec : s.parent p = some rec)
    (hother : RegistryOwns out env s w p owner → rec.owner ≠ owner) :
    vacateParent out env (without p s) w p owner = vacateParent out env s w p owner := by
  obtain ⟨registry, hregistry⟩ := Option.ne_none_iff_exists'.mp hreg
  have hregistry' : (without p s).registryContract = some registry := hregistry
  have hgone : (without p s).parent p = none := Store.remove_self _ _
  unfold vacateParent
  rw [hregistry, hregistry', hgone, hrec]
  -- the same registry answers, and only then is the old record looked at
  refine bind_congr_outcome fun entry hentry => bind_congr_outcome fun _ howner => ?_
  have howner := require_eq_ok.mp howner
  have hne : rec.owner ≠ entry.owner := by
    rw [howner]
    refine hother fun registry' hregistry' => ?_
    obtain rfl := Option.some.inj (hregistry.symm.trans hregistry')
    exact ⟨entry, okOr_eq_ok.mp hentry, howner⟩
  simp only [require, if_pos hne, h.purge_eq]
  rfl

/-- **Unless the owner on record registers it again**, the parent is as new either way. -/
theorem registerParent_revives (h : Tidy s) (hreg : s.registryContract ≠ none)
    (hun : ¬ Notices out env s w p (.registerParent p owner)) :
    registerParent out env (without p s) w p owner = registerParent out env s w p owner := by
  cases hrec : s.parent p with
  | none => rw [h.without_absent hrec]
  | some rec =>
      unfold registerParent
      refine bind_congr_outcome fun _ hauth => bind_congr_outcome fun _ hfqdn => bind_congr fun _ => ?_
      rw [vacateParent_revived h.toIndexed hreg hrec]
      intro howns howner
      exact hun ⟨rfl, requireAuth_eq_ok.mp hauth, mapErr_eq_ok.mp hfqdn, howns, rec, hrec, howner⟩

/-- The owner on record is turned away, unless the record is gone. -/
theorem registerParent_noticed (h : Indexed s) (hreg : s.registryContract ≠ none)
    (hnotice : Notices out env s w p (.registerParent p owner)) :
    registerParent out env s w p owner = .error (.error .alreadyExists) ∧
      ∃ s', registerParent out env (without p s) w p owner = .ok s' := by
  obtain ⟨_, hauth, hfqdn, howns, rec, hrec, howner⟩ := hnotice
  obtain ⟨registry, hregistry⟩ := Option.ne_none_iff_exists'.mp hreg
  obtain ⟨entry, hentry, hentryOwner⟩ := howns registry hregistry
  have hregistry' : (without p s).registryContract = some registry := hregistry
  have hgone : (without p s).parent p = none := Store.remove_self _ _
  have hbase := h.base p rec hrec
  -- the checks before and after `vacateParent` pass on both sides
  have hold : vacateParent out env s w p owner = .error (.error .alreadyExists) := by
    simp [vacateParent, hregistry, hentry, hrec, okOr, require, hentryOwner, howner, bind, Except.bind]
  have hnew : vacateParent out env (without p s) w p owner = .ok (without p s) := by
    simp [vacateParent, hregistry', hentry, hgone, okOr, require, hentryOwner, bind, Except.bind, pure, Except.pure]
  have hchecked : ∀ s, registerParent out env s w p owner
      = vacateParent out env s w p owner >>= fun s => pure { s with parent := s.parent.set p ⟨owner, []⟩ } := by
    intro s
    simp [registerParent, requireAuth, hauth, hfqdn, hbase, mapErr, bind, Except.bind]
  rw [hchecked, hchecked, hold, hnew]
  exact ⟨rfl, _, rfl⟩

/-! ## Calls that need the parent, or one of its subdomains -/

theorem addController_unnoticed {controller : Address}
    (hun : ¬ Notices out env s w p (.addController q caller controller)) :
    addController out env (without p s) w q caller controller
      = (addController out env s w q caller controller).map (without p) := by
  by_cases hq : q = p
  · subst hq
    simp only [addController, map_bind_outcome]
    exact guard_without (fun hguard => hun ⟨rfl, hguard⟩)
  · exact addController_without hq

theorem removeController_unnoticed {controller : Address}
    (hun : ¬ Notices out env s w p (.removeController q caller controller)) :
    removeController out env (without p s) w q caller controller
      = (removeController out env s w q caller controller).map (without p) := by
  by_cases hq : q = p
  · subst hq
    simp only [removeController, map_bind_outcome]
    exact guard_without (fun hguard => hun ⟨rfl, hguard⟩)
  · exact removeController_without hq

theorem create_unnoticed (h : Indexed s) {label : Bytes} {nowUnix : UInt64}
    (hun : ¬ Notices out env s w p (.create label q caller owner nowUnix)) :
    create out env (without p s) w label q caller owner nowUnix
      = (create out env s w label q caller owner nowUnix).map (fun (s, fqdn) => (without p s, fqdn)) := by
  by_cases hq : q = p
  · subst hq
    simp only [create, map_bind_outcome]
    exact guard_without (fun hguard => hun ⟨rfl, hguard⟩)
  · exact create_without h hq

/-- An unsigned call traps whatever the storage. -/
theorem unsigned_traps {α : Type} (h : ¬ env.Authorises caller) {f g : Unit → Result α} :
    (requireAuth env caller >>= f) = (requireAuth env caller >>= g) := by
  have htrap : (requireAuth env caller : Result Unit) = .error .trap := if_neg h
  rw [htrap]
  rfl

theorem transfer_unnoticed (h : Indexed s) {newOwner : Address}
    (hun : ¬ Notices out env s w p (.transfer fqdn caller newOwner)) :
    transfer out env (without p s) w fqdn caller newOwner
      = (transfer out env s w fqdn caller newOwner).map (without p) := by
  cases hunder : under s.subdomain p fqdn with
  | false => exact transfer_without h hunder
  | true =>
      simp only [transfer, map_bind_outcome]
      exact unsigned_traps (fun hauth => hun ⟨hunder, hauth⟩)

theorem delete_unnoticed (h : Indexed s) (hun : ¬ Notices out env s w p (.delete fqdn caller)) :
    delete out env (without p s) w fqdn caller = (delete out env s w fqdn caller).map (without p) := by
  cases hunder : under s.subdomain p fqdn with
  | false => exact delete_without h hunder
  | true =>
      simp only [delete, map_bind_outcome]
      exact unsigned_traps (fun hauth => hun ⟨hunder, hauth⟩)

theorem revoke_unnoticed (h : Indexed s) (hun : ¬ Notices out env s w p (.revoke fqdn caller)) :
    revoke out env (without p s) w fqdn caller = (revoke out env s w fqdn caller).map (without p) := by
  cases hunder : under s.subdomain p fqdn with
  | false => exact revoke_without h hunder
  | true =>
      simp only [revoke, map_bind_outcome]
      exact unsigned_traps (fun hauth => hun ⟨hunder, hauth⟩)

/-- A signed call that needs the parent fails with its record gone, and not for want of it otherwise. -/
theorem guard_noticed {α : Type} (hauth : env.Authorises caller) (hactive : ParentActive out env s w p)
    (hrec : s.parent p = some rec) {f g : ParentDomain → Result α}
    (hg : g rec ≠ .error (.error .parentNotFound)) :
    (requireAuth env caller >>= fun _ => getParent out env (without p s) w p >>= f)
      = .error (.error .parentNotFound) ∧
    (requireAuth env caller >>= fun _ => getParent out env s w p >>= g) ≠ .error (.error .parentNotFound) := by
  have hsigned : (requireAuth env caller : Result Unit) = .ok () := if_pos hauth
  have hfound : getParent out env s w p = .ok rec := getParent_eq_ok.mpr ⟨hactive, hrec⟩
  rw [hsigned, getParent_gone, hfound]
  exact ⟨rfl, hg⟩

/-- A signed call on a subdomain does not find it once it is gone, and finds it otherwise. -/
theorem find_noticed {α : Type} (hauth : env.Authorises caller) (hunder : under s.subdomain p fqdn = true)
    {f g : SubdomainRecord → Result α} (hg : ∀ record, g record ≠ .error (.error .notFound)) :
    (requireAuth env caller >>= fun _ => getSubdomain (without p s) fqdn >>= f) = .error (.error .notFound) ∧
    (requireAuth env caller >>= fun _ => getSubdomain s fqdn >>= g) ≠ .error (.error .notFound) := by
  have hsigned : (requireAuth env caller : Result Unit) = .ok () := if_pos hauth
  obtain ⟨record, hrecord, _⟩ := under_eq_true.mp hunder
  have hfound : getSubdomain s fqdn = .ok record := getSubdomain_eq_ok.mpr hrecord
  rw [hsigned, getSubdomain_gone hunder, hfound]
  exact ⟨rfl, hg record⟩

/-! ## Every call -/

/-- The storage with a namespace gone, or none. -/
def lacking : Option Bytes → State → State
  | some p, s => without p s
  | none, s   => s

/-- What is still gone after the call commits: a parent that is registered anew is not. -/
def Call.leaves (c : Call) (p : Bytes) : Option Bytes :=
  match c with
  | .registerParent name _ => if name = p then none else some p
  | _                      => some p

/-- The check for an active parent takes out its namespace, or nothing. -/
theorem ensure_lacks (h : Indexed s) (q : Bytes) :
    (ensureParentIsActive out env s w q).1
      = lacking ((some q).filter (fun q => !(ensureParentIsActive out env s w q).2)) s := by
  rw [Option.filter_some]
  cases hactive : ensureParentIsActive out env s w q with
  | mk s₁ active =>
      cases active with
      | true =>
          have hsame := ensure_active (congrArg Prod.snd hactive)
          rw [hactive] at hsame
          exact hsame
      | false => exact (ensureParentIsActive_false hactive).trans (h.purge_eq q)

theorem mem_leaves {c : Call} (h : q ∈ c.leaves p) : q ∈ some p := by
  unfold Call.leaves at h
  split at h
  · split at h
    · cases h
    · exact h
  · exact h

theorem requireActive_ne_notFound : requireActive out env s w q ≠ .error (.error .notFound) :=
  require_ne_error (by decide)

theorem getParent_ne_notFound : getParent out env s w q ≠ .error (.error .notFound) :=
  bind_ne_error requireActive_ne_notFound (fun _ => okOr_ne_error (by decide))

/-- **A call that does not notice does the same**, but for what is still gone. -/
theorem step_without (h : Tidy s) (hreg : s.registryContract ≠ none) {c : Call}
    (hun : ¬ Notices out env s w p c) :
    step out w (without p s) ⟨env, c⟩ = (step out w s ⟨env, c⟩).map (lacking (c.leaves p)) := by
  cases c with
  | registerParent name owner =>
      by_cases hname : name = p
      · -- registered anew, the namespace is no longer missing
        subst hname
        have hleaves : (Call.registerParent name owner).leaves name = none := if_pos rfl
        rw [hleaves]
        refine (registerParent_revives h hreg hun).trans ?_
        show _ = (registerParent out env s w name owner).map id
        cases registerParent out env s w name owner <;> rfl
      · have hleaves : (Call.registerParent name owner).leaves p = some p := if_neg hname
        rw [hleaves]
        exact registerParent_without h.toIndexed hname
  | initializeContract admin =>
      show initializeContract (without p s) admin = (initializeContract s admin).map (without p)
      simp only [initializeContract, map_bind_outcome]
      rfl
  | setRegistryContract registryContract =>
      show setRegistryContract env (without p s) registryContract = (setRegistryContract env s _).map (without p)
      simp only [setRegistryContract, map_bind_outcome]
      rfl
  | setMaxDepth depth =>
      show setMaxDepth env (without p s) depth = (setMaxDepth env s depth).map (without p)
      simp only [setMaxDepth, map_bind_outcome]
      rfl
  | upgrade =>
      show upgrade env (without p s) = (upgrade env s).map (without p)
      simp only [upgrade, map_bind_outcome]
      rfl
  | addController name caller controller => exact addController_unnoticed hun
  | removeController name caller controller => exact removeController_unnoticed hun
  | create label name caller owner nowUnix =>
      show (create out env (without p s) w label name caller owner nowUnix >>= _) = _
      rw [create_unnoticed h.toIndexed hun, bind_map_outcome]
      show _ = (create out env s w label name caller owner nowUnix >>= _).map _
      rw [map_bind_outcome]
      rfl
  | transfer fqdn caller newOwner => exact transfer_unnoticed h.toIndexed hun
  | delete fqdn caller => exact delete_unnoticed h.toIndexed hun
  | revoke fqdn caller => exact revoke_unnoticed h.toIndexed hun
  | parent name =>
      show (.ok (parent out env (without p s) w name).1 : Result State) = .ok (without p (parent out env s w name).1)
      rw [parent_state, parent_state, ensure_without h.toIndexed]
  | record fqdn => exact congrArg Except.ok (record_without h)
  | existsRecord fqdn => exact congrArg Except.ok (record_without h)
  | subdomainsForParent name =>
      show (.ok (subdomainsForParent out env (without p s) w name).1 : Result State)
        = .ok (without p (subdomainsForParent out env s w name).1)
      rw [subdomainsForParent_state, subdomainsForParent_state, ensure_without h.toIndexed]

/-- A call that goes on once it has found the parent does not report it missing. -/
theorem addController_noticed {controller : Address}
    (hnotice : Notices out env s w p (.addController q caller controller)) :
    addController out env (without p s) w q caller controller = .error (.error .parentNotFound) ∧
      addController out env s w q caller controller ≠ .error (.error .parentNotFound) := by
  obtain ⟨rfl, hauth, hactive, rec, hrec⟩ := hnotice
  refine guard_noticed hauth hactive hrec ?_
  refine bind_ne_error (require_ne_error (by decide)) fun _ => ?_
  split <;> exact pure_ne_error

theorem removeController_noticed {controller : Address}
    (hnotice : Notices out env s w p (.removeController q caller controller)) :
    removeController out env (without p s) w q caller controller = .error (.error .parentNotFound) ∧
      removeController out env s w q caller controller ≠ .error (.error .parentNotFound) := by
  obtain ⟨rfl, hauth, hactive, rec, hrec⟩ := hnotice
  refine guard_noticed hauth hactive hrec ?_
  refine bind_ne_error (require_ne_error (by decide)) fun _ => ?_
  split <;> exact pure_ne_error

/-- A creation that notices is told that there is no such parent, and would not be told so before. -/
theorem create_noticed {label : Bytes} {nowUnix : UInt64}
    (hnotice : Notices out env s w p (.create label q caller owner nowUnix)) :
    create out env (without p s) w label q caller owner nowUnix = .error (.error .parentNotFound) ∧
      create out env s w label q caller owner nowUnix ≠ .error (.error .parentNotFound) := by
  obtain ⟨rfl, hauth, hactive, rec, hrec⟩ := hnotice
  refine guard_noticed hauth hactive hrec ?_
  -- the checks that follow have errors of their own, and the buffer traps
  have hbuffer : ∀ n, bufferSlice n ≠ .error (.error .parentNotFound) := by
    intro n
    unfold bufferSlice
    split <;> simp
  refine bind_ne_error (require_ne_error (by decide)) fun _ => bind_ne_error (hbuffer _) fun _ => ?_
  refine bind_ne_error (hbuffer _) fun _ => bind_ne_error (require_ne_error (by decide)) fun _ => ?_
  refine bind_ne_error (hbuffer _) fun _ => bind_ne_error (require_ne_error (by decide)) fun _ => pure_ne_error

/-- A transfer that notices is told that there is no such subdomain, and would not be told so before. -/
theorem transfer_noticed {newOwner : Address}
    (hnotice : Notices out env s w p (.transfer fqdn caller newOwner)) :
    transfer out env (without p s) w fqdn caller newOwner = .error (.error .notFound) ∧
      transfer out env s w fqdn caller newOwner ≠ .error (.error .notFound) := by
  refine find_noticed hnotice.2 hnotice.1 fun record => ?_
  exact bind_ne_error requireActive_ne_notFound fun _ =>
    bind_ne_error (require_ne_error (by decide)) fun _ => pure_ne_error

/-- So is a deletion. -/
theorem delete_noticed (hnotice : Notices out env s w p (.delete fqdn caller)) :
    delete out env (without p s) w fqdn caller = .error (.error .notFound) ∧
      delete out env s w fqdn caller ≠ .error (.error .notFound) := by
  refine find_noticed hnotice.2 hnotice.1 fun record => bind_ne_error requireActive_ne_notFound fun _ => ?_
  split
  · exact bind_ne_error getParent_ne_notFound fun _ =>
      bind_ne_error (require_ne_error (by decide)) fun _ => pure_ne_error
  · exact pure_ne_error

/-- So is a revocation. -/
theorem revoke_noticed (hnotice : Notices out env s w p (.revoke fqdn caller)) :
    revoke out env (without p s) w fqdn caller = .error (.error .notFound) ∧
      revoke out env s w fqdn caller ≠ .error (.error .notFound) := by
  refine find_noticed hnotice.2 hnotice.1 fun record => ?_
  exact bind_ne_error requireActive_ne_notFound fun _ =>
    bind_ne_error (require_ne_error (by decide)) fun _ => pure_ne_error

/-- What an outcome shows: two that differ in the error of one of them differ. -/
theorem map_ne_of_error {α β : Type} {r r' : Result α} {x : Fault SubdomainError} {f : α → β}
    (h : r = .error x ∧ r' ≠ .error x) : r.map f ≠ r'.map f := by
  obtain ⟨rfl, hr'⟩ := h
  cases r' with
  | ok a => exact fun h => by cases h
  | error y =>
      intro h
      injection h with h
      exact hr' (congrArg Except.error h.symm)

/-- A call that returns no value: only its failing can be noticed. -/
theorem answer_done (h : Tidy s) (hreg : s.registryContract ≠ none) {c : Call}
    (hdone : ∀ s, answer out env s w c = .done ((step out w s ⟨env, c⟩).map (fun _ => ())))
    (hnoticed : Notices out env s w p c →
      (step out w (without p s) ⟨env, c⟩).map (fun _ => ()) ≠ (step out w s ⟨env, c⟩).map (fun _ => ())) :
    answer out env (without p s) w c = answer out env s w c ↔ ¬ Notices out env s w p c := by
  rw [hdone, hdone]
  constructor
  · intro hsame hnotice
    exact hnoticed hnotice (Answer.done.inj hsame)
  · intro hun
    rw [step_without h hreg hun]
    cases step out w s ⟨env, c⟩ <;> rfl

/-- **A call answers the same iff it does not notice.** -/
theorem answer_without (h : Tidy s) (hreg : s.registryContract ≠ none) (c : Call) :
    answer out env (without p s) w c = answer out env s w c ↔ ¬ Notices out env s w p c := by
  cases c with
  | initializeContract | setRegistryContract | setMaxDepth | upgrade =>
      exact answer_done h hreg (fun _ => rfl) (fun hnotice => hnotice.elim)
  | registerParent name owner =>
      -- the one call that is refused because of the namespace
      refine answer_done h hreg (fun _ => rfl) fun hnotice => ?_
      obtain rfl := hnotice.1
      obtain ⟨hold, s', hnew⟩ := registerParent_noticed h.toIndexed hreg hnotice
      show (registerParent out env (without name s) w name owner).map _ ≠ (registerParent out env s w name owner).map _
      rw [hold, hnew]
      exact fun heq => by cases heq
  | addController name caller controller =>
      exact answer_done h hreg (fun _ => rfl) (fun hnotice => map_ne_of_error (addController_noticed hnotice))
  | removeController name caller controller =>
      exact answer_done h hreg (fun _ => rfl) (fun hnotice => map_ne_of_error (removeController_noticed hnotice))
  | create label name caller owner nowUnix =>
      constructor
      · intro hsame hnotice
        exact map_ne_of_error (create_noticed hnotice) (Answer.created.inj hsame)
      · intro hun
        simp only [answer, create_unnoticed h.toIndexed hun]
        cases create out env s w label name caller owner nowUnix <;> rfl
  | transfer fqdn caller newOwner =>
      exact answer_done h hreg (fun _ => rfl) (fun hnotice => map_ne_of_error (transfer_noticed hnotice))
  | delete fqdn caller =>
      exact answer_done h hreg (fun _ => rfl) (fun hnotice => map_ne_of_error (delete_noticed hnotice))
  | revoke fqdn caller =>
      exact answer_done h hreg (fun _ => rfl) (fun hnotice => map_ne_of_error (revoke_noticed hnotice))
  | parent name => exact ⟨fun hsame => parent_answer_iff.mp (Answer.parent.inj hsame),
      fun hun => congrArg Answer.parent (parent_answer_iff.mpr hun)⟩
  | record fqdn => exact ⟨fun hsame => record_answer_iff.mp (Answer.record.inj hsame),
      fun hun => congrArg Answer.record (record_answer_iff.mpr hun)⟩
  | existsRecord fqdn => exact ⟨fun hsame => existsRecord_answer_iff.mp (Answer.found.inj hsame),
      fun hun => congrArg Answer.found (existsRecord_answer_iff.mpr hun)⟩
  | subdomainsForParent name => exact ⟨fun hsame => subdomainsForParent_answer_iff.mp (Answer.names.inj hsame),
      fun hun => congrArg Answer.names (subdomainsForParent_answer_iff.mpr hun)⟩

end XlmNs.Subdomain
