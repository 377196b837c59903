import XlmNs.Subdomain.Events

/-!
# `Subdomain.Correctness.EventLog` — what the log of the subdomain contract tells

Purges are not published. They take whole namespaces, and every write needs the parent on record: so a follower that
lets a namespace go when its parent is registered anew has each namespace as the contract has it, or the contract has
nothing of it (`namespaces_replay`). The invariant `Follows` says just that; a query drops a namespace on the one side,
a registration brings the two sides together again.
-/

namespace XlmNs.Subdomain

open Soroban

variable {ω : Type} {out : Outside ω} {env : Env} {s s' : State} {w : ω} {r : Roll}
variable {p q fqdn : Bytes} {record : SubdomainRecord} {rec : ParentDomain} {caller : Address}

/-! ## Namespaces -/

/-- What a roll has of the namespace of a parent. -/
def Roll.space (r : Roll) (p : Bytes) : Option ParentDomain × Store Bytes Address := (r.parents p, r.owners p)

/-- A namespace of which there is nothing. -/
def nothing : Option ParentDomain × Store Bytes Address := (none, fun _ => none)

/-- **Each namespace is what the follower has, or there is nothing of it.** -/
def Follows (s : State) (r : Roll) : Prop := ∀ p, (roll s).space p = r.space p ∨ (roll s).space p = nothing

theorem follows_roll (s : State) : Follows s (roll s) := fun _ => Or.inl rfl

theorem heldUnder_self (p : Bytes) (owner : Address) : heldUnder p (p, owner) = some owner := if_pos rfl

theorem heldUnder_ne {held : Bytes × Address} (h : held.1 ≠ p) : heldUnder p held = none := if_neg h

theorem owners_eq_some {owner : Address} : r.owners p fqdn = some owner ↔ r.records fqdn = some (p, owner) := by
  rw [Roll.owners, Option.bind_eq_some_iff]
  constructor
  · rintro ⟨⟨parent, owner'⟩, hheld, hunder⟩
    by_cases hparent : parent = p
    · subst hparent
      rw [heldUnder_self] at hunder
      rw [hheld, Option.some.inj hunder]
    · rw [heldUnder_ne hparent] at hunder
      cases hunder
  · intro hheld
    exact ⟨(p, owner), hheld, heldUnder_self p owner⟩

theorem owners_roll (hrecord : s.subdomain fqdn = some record) (p : Bytes) :
    (roll s).owners p fqdn = heldUnder p (record.parent, record.owner) := by
  simp only [Roll.owners, roll, Store.view_eq _ hrecord, Option.bind_some]

/-- The subdomains under a parent after a write of one. -/
theorem owners_update (parents : Store Bytes ParentDomain) (records : Store Bytes (Bytes × Address)) (fqdn : Bytes)
    (u : Option (Bytes × Address)) (p : Bytes) :
    Roll.owners ⟨parents, Function.update records fqdn u⟩ p =
      Function.update (Roll.owners ⟨parents, records⟩ p) fqdn (u.bind (heldUnder p)) := by
  funext other
  exact Function.apply_update (fun _ held => held.bind (heldUnder p)) records fqdn u other

/-- A parent on record is followed. -/
theorem Follows.found (h : Follows s r) (hrec : s.parent p = some rec) : (roll s).space p = r.space p := by
  rcases h p with hsame | hnothing
  · exact hsame
  · cases hrec.symm.trans (congrArg Prod.fst hnothing)

/-- So is the parent of a subdomain on record. -/
theorem Follows.recorded (h : Follows s r) (hrecord : s.subdomain fqdn = some record) :
    (roll s).space record.parent = r.space record.parent := by
  rcases h record.parent with hsame | hnothing
  · exact hsame
  · have hnone : (roll s).owners record.parent fqdn = none := congrFun (congrArg Prod.snd hnothing) fqdn
    rw [owners_roll hrecord, heldUnder_self] at hnone
    cases hnone

/-- The follower has such a subdomain, under the same parent. -/
theorem records_of_sync (hrecord : s.subdomain fqdn = some record) (hsync : (roll s).space record.parent = r.space record.parent) :
    r.records fqdn = some (record.parent, record.owner) := by
  have howner : (roll s).owners record.parent fqdn = r.owners record.parent fqdn := congrFun (congrArg Prod.snd hsync) fqdn
  rw [owners_roll hrecord, heldUnder_self] at howner
  exact owners_eq_some.mp howner.symm

/-! ## Writes -/

/-- **A subdomain is written under a parent that is followed.** -/
theorem Follows.write {u : Option (Bytes × Address)} (h : Follows s r) (hsync : (roll s).space q = r.space q)
    (hparents : s'.parent = s.parent) (hrecords : (roll s').records = Function.update (roll s).records fqdn u)
    (hu : ∀ held, u = some held → held.1 = q) (hwas : ∀ record, s.subdomain fqdn = some record → record.parent = q) :
    Follows s' { r with records := Function.update r.records fqdn u } := by
  have hroll : roll s' = ⟨(roll s).parents, Function.update (roll s).records fqdn u⟩ := by
    rw [← hrecords]
    exact congrArg (Roll.mk · (roll s').records) hparents
  intro p
  have hspace : (roll s').space p =
      ((roll s).parents p, Function.update ((roll s).owners p) fqdn (u.bind (heldUnder p))) := by
    rw [hroll, Roll.space, owners_update]
  have hspace' : Roll.space { r with records := Function.update r.records fqdn u } p =
      (r.parents p, Function.update (r.owners p) fqdn (u.bind (heldUnder p))) := by
    rw [Roll.space, owners_update]
  rw [hspace, hspace']
  by_cases hp : p = q
  · subst hp
    obtain ⟨hparent, howners⟩ := Prod.mk.inj hsync
    left
    rw [hparent, howners]
  -- under another parent there is nothing to write, and the follower may only forget a subdomain
  · have hnone : u.bind (heldUnder p) = none := by
      rw [Option.bind_eq_none_iff]
      intro held hheld
      apply heldUnder_ne
      rw [hu held hheld]
      exact Ne.symm hp
    have hkept : Function.update ((roll s).owners p) fqdn none = (roll s).owners p := by
      rw [Function.update_eq_self_iff]
      cases hrecord : s.subdomain fqdn with
      | none => simp [Roll.owners, roll, Store.view, hrecord]
      | some record =>
          rw [owners_roll hrecord, heldUnder_ne]
          rw [hwas record hrecord]
          exact Ne.symm hp
    rw [hnone, hkept]
    rcases h p with hsame | hnothing
    · left
      obtain ⟨hparent, howners⟩ := Prod.mk.inj hsame
      rw [hparent, ← howners, hkept]
    · exact Or.inr hnothing

/-- A subdomain is recorded, or recorded anew under the same parent. -/
theorem Follows.put (h : Follows s r) (hsync : (roll s).space record.parent = r.space record.parent)
    (hparents : s'.parent = s.parent) (hsub : s'.subdomain = s.subdomain.set fqdn record)
    (hwas : ∀ old, s.subdomain fqdn = some old → old.parent = record.parent) :
    Follows s' { r with records := r.records.set fqdn (record.parent, record.owner) } := by
  refine h.write hsync hparents ?_ ?_ hwas
  · exact Store.view_of_set _ hsub rfl
  · intro held hheld
    rw [← Option.some.inj hheld]

/-- A subdomain is removed. -/
theorem Follows.drop (h : Follows s r) (hrecord : s.subdomain fqdn = some record) (hparents : s'.parent = s.parent)
    (hsub : s'.subdomain = s.subdomain.remove fqdn) : Follows s' { r with records := r.records.remove fqdn } := by
  refine h.write (h.recorded hrecord) hparents ?_ ?_ ?_
  · show Store.view _ s'.subdomain = _
    rw [hsub]
    exact Store.view_remove _ _ _
  · intro held hheld
    cases hheld
  · intro old hold
    rw [Option.some.inj (hold.symm.trans hrecord)]

/-- The owner of a parent edits its controllers. -/
theorem Follows.control (h : Follows s r) (hrec : s.parent q = some rec) (edit : List Address → List Address) :
    Follows { s with parent := s.parent.set q { rec with controllers := edit rec.controllers } } (r.control q edit) := by
  have hsync := Prod.mk.inj (h.found hrec)
  have hfollowed : r.parents q = some rec := hsync.1.symm.trans hrec
  rw [Roll.control, hfollowed]
  intro p
  by_cases hp : p = q
  · subst hp
    left
    show (Store.set _ _ _ p, (roll s).owners p) = (Store.set _ _ _ p, r.owners p)
    rw [Store.set_self, Store.set_self, hsync.2]
  · have hspace : Roll.space (roll { s with parent := s.parent.set q { rec with controllers := edit rec.controllers } }) p =
        (roll s).space p :=
      congrArg (Prod.mk · ((roll s).owners p)) (Store.set_ne _ _ hp)
    have hspace' : Roll.space { r with parents := r.parents.set q { rec with controllers := edit rec.controllers } } p =
        r.space p :=
      congrArg (Prod.mk · (r.owners p)) (Store.set_ne _ _ hp)
    rw [hspace, hspace']
    exact h p

/-! ## Namespaces that go -/

/-- Hiding what is held under `q`. -/
theorem owners_hide {records : Store Bytes (Bytes × Address)} {hidden : Bytes → Bool} {q : Bytes}
    (hhidden : ∀ fqdn held, records fqdn = some held → (hidden fqdn = true ↔ held.1 = q))
    (parents : Store Bytes ParentDomain) (p : Bytes) :
    Roll.owners ⟨parents, records.hide hidden⟩ p =
      if p = q then fun _ => none else Roll.owners ⟨parents, records⟩ p := by
  funext fqdn
  show (records.hide hidden fqdn).bind (heldUnder p) = _
  cases hheld : records fqdn with
  | none =>
      have hnone : records.hide hidden fqdn = none := by
        unfold Store.hide
        rw [hheld, ite_self]
      rw [hnone]
      split
      · rfl
      · simp only [Roll.owners, hheld]
  | some held =>
      by_cases hq : held.1 = q
      · rw [Store.hide_of_hidden _ ((hhidden fqdn held hheld).mpr hq)]
        split
        · rfl
        · rename_i hp
          simp only [Roll.owners, hheld, Option.bind_none, Option.bind_some]
          rw [heldUnder_ne]
          rw [hq]
          exact Ne.symm hp
      · have hshown : hidden fqdn = false := by
          rw [← Bool.not_eq_true, hhidden fqdn held hheld]
          exact hq
        rw [Store.hide_of_shown _ hshown, hheld]
        split
        · rename_i hp
          rw [Option.bind_some, heldUnder_ne]
          rw [hp]
          exact hq
        · simp only [Roll.owners, hheld]

/-- The namespaces without that of `q`. -/
theorem space_without (q : Bytes) (s : State) (p : Bytes) :
    (roll (without q s)).space p = if p = q then nothing else (roll s).space p := by
  have hrecords : (roll (without q s)).records = (roll s).records.hide (under s.subdomain q) := by
    funext fqdn
    simp only [roll, without, Store.view, Store.hide]
    split <;> rfl
  have hhidden : ∀ fqdn held, (roll s).records fqdn = some held → (under s.subdomain q fqdn = true ↔ held.1 = q) := by
    intro fqdn held hheld
    obtain ⟨record, hrecord, rfl⟩ := Option.map_eq_some_iff.mp hheld
    rw [under_of_some hrecord, decide_eq_true_iff]
  have howners := owners_hide hhidden (s.parent.remove q) p
  rw [← hrecords] at howners
  show (s.parent.remove q p, _) = _
  rw [show (roll (without q s)).owners p = Roll.owners ⟨s.parent.remove q, (roll (without q s)).records⟩ p from rfl,
    howners, Store.remove_apply]
  split <;> rfl

/-- A namespace that goes is none that is followed wrongly. -/
theorem Follows.without (h : Follows s r) (q : Bytes) : Follows (without q s) r := by
  intro p
  rw [space_without]
  split
  · exact Or.inr rfl
  · exact h p

/-- A parent registered anew starts over, on both sides. -/
theorem Follows.register (h : Follows s r) (q : Bytes) (owner : Address) :
    Follows { Subdomain.without q s with parent := (Subdomain.without q s).parent.set q ⟨owner, []⟩ }
      (r.apply (.parentRegistered q owner)) := by
  have hhidden : ∀ fqdn held, r.records fqdn = some held → ((r.owners q fqdn).isSome = true ↔ held.1 = q) := by
    intro fqdn held hheld
    rw [Roll.owners, hheld, Option.bind_some, heldUnder]
    split <;> simp_all
  intro p
  have hgone := space_without q s p
  have hgone' := owners_hide hhidden (r.parents.set q ⟨owner, []⟩) p
  by_cases hp : p = q
  · subst hp
    rw [if_pos rfl] at hgone hgone'
    left
    show (Store.set _ _ _ p, (roll (Subdomain.without p s)).owners p) = (Store.set _ _ _ p, Roll.owners ⟨_, _⟩ p)
    rw [Store.set_self, Store.set_self, hgone', (Prod.mk.inj hgone).2]
  · rw [if_neg hp] at hgone hgone'
    have hspace : Roll.space (roll { Subdomain.without q s with
        parent := (Subdomain.without q s).parent.set q ⟨owner, []⟩ }) p = (roll s).space p := by
      rw [← hgone]
      exact congrArg (Prod.mk · ((roll (Subdomain.without q s)).owners p)) (Store.set_ne _ _ hp)
    have hspace' : Roll.space (r.apply (.parentRegistered q owner)) p = r.space p := by
      show (Store.set _ _ _ p, Roll.owners ⟨_, _⟩ p) = _
      rw [Store.set_ne _ _ hp, hgone']
      rfl
    rw [hspace, hspace']
    exact h p

/-! ## Every committed invocation -/

/-- The query for an active parent drops a namespace or nothing. -/
theorem Follows.ensure (hs : Tidy s) (h : Follows s r) (p : Bytes) : Follows (ensureParentIsActive out env s w p).1 r := by
  unfold ensureParentIsActive
  split
  · exact h
  · split
    · exact h
    · rw [hs.toIndexed.purge_eq]
      exact h.without p

/-- **Every committed invocation is followed.** -/
theorem Follows.step {c : Call} (hs : Tidy s) (h : Follows s r) (hok : step out w s ⟨env, c⟩ = .ok s') :
    Follows s' (replay Roll.apply r (events s ⟨env, c⟩)) := by
  cases c with
  | initializeContract | setRegistryContract | setMaxDepth | upgrade =>
      have hsame : SameNamespaces s s' := step_administers rfl hok
      have hroll : roll s' = roll s := by rw [roll, hsame.parent, hsame.subdomain, roll]
      intro p
      rw [hroll]
      exact h p
  | registerParent p owner =>
      obtain ⟨_, _, s₁, hs₁, rfl⟩ := registerParent_ok hok
      have hwithout : s₁ = Subdomain.without p s := by
        rcases hs₁ with ⟨rfl, hnone⟩ | rfl
        · exact (hs.without_absent hnone).symm
        · exact hs.toIndexed.purge_eq p
      rw [hwithout]
      exact h.register p owner
  | addController p caller controller =>
      simp only [Subdomain.step, addController, bind_eq_ok, requireAuth_eq_ok, getParent_eq_ok, require_eq_ok,
        exists_const] at hok
      obtain ⟨_, rec, ⟨_, hrec⟩, _, hok⟩ := hok
      simp only [events, controllersOf, hrec]
      split at hok
      · rename_i hlisted
        obtain rfl := pure_eq_ok.mp hok
        rw [if_pos hlisted]
        exact h
      · rename_i hlisted
        obtain rfl := pure_eq_ok.mp hok
        rw [if_neg hlisted]
        exact h.control hrec fun controllers => controllers ++ [controller]
  | removeController p caller controller =>
      simp only [Subdomain.step, removeController, bind_eq_ok, requireAuth_eq_ok, getParent_eq_ok, require_eq_ok,
        exists_const] at hok
      obtain ⟨_, rec, ⟨_, hrec⟩, _, hok⟩ := hok
      simp only [events, controllersOf, hrec]
      split at hok
      · rename_i hlisted
        obtain rfl := pure_eq_ok.mp hok
        rw [if_pos hlisted]
        exact h.control hrec fun controllers => controllers.erase controller
      · rename_i hlisted
        obtain rfl := pure_eq_ok.mp hok
        rw [if_neg hlisted]
        exact h
  | create label p caller owner nowUnix =>
      obtain ⟨⟨s₁, fqdn⟩, hcreate, hs₁⟩ := bind_eq_ok.mp hok
      obtain rfl := pure_eq_ok.mp hs₁
      obtain ⟨⟨rec, hadmitted⟩, rfl, hfresh, rfl⟩ := create_ok hcreate
      let record : SubdomainRecord := ⟨p, owner, nowUnix⟩
      have hsync : (roll s).space record.parent = r.space record.parent := h.found hadmitted.found
      refine h.put hsync rfl rfl ?_
      intro old hold
      cases hfresh.symm.trans hold
  | transfer fqdn caller newOwner =>
      obtain ⟨record, hrecord, rfl⟩ := transfer_ok hok
      have hsync := h.recorded hrecord
      simp only [events, hrecord, replay_cons, replay_nil, Roll.apply, records_of_sync hrecord hsync]
      let moved : SubdomainRecord := { record with owner := newOwner }
      have hmoved : (roll s).space moved.parent = r.space moved.parent := hsync
      refine h.put hmoved rfl rfl ?_
      intro old hold
      rw [Option.some.inj (hold.symm.trans hrecord)]
  | delete fqdn caller =>
      obtain ⟨record, hrecord, rfl, _⟩ := delete_ok hok
      exact h.drop hrecord rfl rfl
  | revoke fqdn caller =>
      obtain ⟨record, hrecord, rfl, _⟩ := revoke_ok hok
      exact h.drop hrecord rfl rfl
  | parent name =>
      obtain rfl := pure_eq_ok.mp hok
      rw [parent_state]
      exact h.ensure hs name
  | record fqdn | existsRecord fqdn =>
      obtain rfl := pure_eq_ok.mp hok
      show Follows (Subdomain.record out env s w fqdn).1 r
      rw [hs.record_state]
      split
      · exact h.ensure hs _
      · exact h
  | subdomainsForParent name =>
      obtain rfl := pure_eq_ok.mp hok
      rw [subdomainsForParent_state]
      exact h.ensure hs name

/-- **The namespaces can be rebuilt from the log, but for those purged.** After any calls from deployment, whatever the
    registries asked say from one call to the next, a follower has for every parent what the contract has, its owner and
    controllers and the subdomains under it with their owners; or the contract has neither the parent nor a subdomain
    under it. -/
theorem namespaces_replay (out : Outside ω) (ts : List (ω × Tx Call)) (p : Bytes) :
    let r := replay Roll.apply (roll State.empty) (eventLog out State.empty ts)
    let s := run (inWorlds (step out)) State.empty ts
    (s.parent p = r.parents p ∧ ∀ fqdn owner, (∃ record, s.subdomain fqdn = some record ∧ record.parent = p ∧
        record.owner = owner) ↔ r.records fqdn = some (p, owner)) ∨
      (s.parent p = none ∧ ∀ fqdn record, s.subdomain fqdn = some record → record.parent ≠ p) := by
  intro r s
  have hstep : ∀ s (t : ω × Tx Call) s' r, (Tidy s ∧ Follows s r) → inWorlds (step out) s t = .ok s' →
      Tidy s' ∧ Follows s' (replay Roll.apply r (events s t.2)) := by
    rintro s ⟨w, env, c⟩ s' r ⟨hs, h⟩ hok
    exact ⟨preserves_tidy out s ⟨w, env, c⟩ s' hs hok, h.step hs hok⟩
  have hrun : Tidy s ∧ Follows s r :=
    replay_published_rel (R := fun s r => Tidy s ∧ Follows s r) hstep ts ⟨tidy_empty, follows_roll _⟩
  rcases hrun.2 p with hsame | hnothing
  · left
    obtain ⟨hparent, howners⟩ := Prod.mk.inj hsame
    refine ⟨hparent, ?_⟩
    intro fqdn owner
    rw [← owners_eq_some, ← howners, owners_eq_some]
    constructor
    · rintro ⟨record, hrecord, rfl, rfl⟩
      exact Store.view_eq _ hrecord
    · intro hheld
      obtain ⟨record, hrecord, heq⟩ := Option.map_eq_some_iff.mp hheld
      obtain ⟨hparent, howner⟩ := Prod.mk.inj heq
      exact ⟨record, hrecord, hparent, howner⟩
  · right
    obtain ⟨hparent, howners⟩ := Prod.mk.inj hnothing
    refine ⟨hparent, ?_⟩
    rintro fqdn record hrecord rfl
    have hnone := congrFun howners fqdn
    rw [owners_roll hrecord, heldUnder_self] at hnone
    cases hnone

end XlmNs.Subdomain
