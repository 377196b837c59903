import XlmNs.Registry.Correctness.Lifecycle
import XlmNs.Subdomain.Correctness.Indexes
import XlmNs.System.Delegation

/-!
# `System.SubdomainControl` — do subdomain owners control their records in the resolver?

The new owner of a subdomain should be able to set its record in the resolver, and nobody else (`Controlled`). The
resolver asks the registry alone, which knows nothing of the subdomain contract and registers a multi-label name for
anybody. `controlled_iff`: subdomain owners control their records throughout a run exactly when there are none, that
is, no subdomain is created, and no name is registered below a registered base name.
-/

namespace XlmNs.Delegation

open Soroban

variable {ω : Type} {out : Outside ω} {d : Deployment} {env : Env} {s s' : State ω}
variable {fqdn p : Bytes} {e : RegistryEntry}

/-! ## The property -/

/-- `fqdn` is a name under the base name `p`. -/
def Under (fqdn p : Bytes) : Prop := validateBaseNameSoroban p = .ok () ∧ ∃ label, fqdn = label ++ dot :: p

/-- `resolver.set_record(fqdn, c, address, now)` succeeds. -/
def SetsRecord (out : Outside ω) (d : Deployment) (env : Env) (s : State ω) (fqdn : Bytes) (c : Address)
    (address : Bytes) (now : UInt64) : Prop :=
  ∃ r, Resolver.setRecord (RegistryResolver.theRegistry (aroundNames out d) d.toDeployment) env s.resolver
    (s.registry, s.world) fqdn c address now = .ok r

/-- The subdomain contract's record for `fqdn` has owner `c`. -/
def OwnsSubdomain (s : State ω) (fqdn : Bytes) (c : Address) : Prop :=
  ∃ record, s.world.1.subdomain fqdn = some record ∧ record.owner = c

/-- **Subdomain owners control subdomain records**: under every base name that is Active at the time of the call. -/
def Controlled (out : Outside ω) (d : Deployment) (s : State ω) : Prop :=
  ∀ p fqdn env c address now, Under fqdn p → Registry.nameState s.registry p now = .active → env.Authorises c →
    (SetsRecord out d env s fqdn c address now ↔ OwnsSubdomain s fqdn c)

/-- After the transaction the contracts are still wired together and subdomain owners control their records. -/
def ControlledAfter (out : Outside ω) (d : Deployment) (s : State ω) (t : Tx Call) : Prop :=
  Wired d (exec (step out d) s t) ∧ Controlled out d (exec (step out d) s t)

/-- A registered name is above or below `name`. -/
def Overlaps (g : Registry.State) (name : Bytes) : Prop :=
  ∃ other e, g.entry other = some e ∧ (Under name other ∨ Under other name)

/-- The call creates no subdomain, registers no name above or below a registered one, and leaves the wiring. -/
def SparesNamespaces (d : Deployment) (s : State ω) : Call → Prop
  | .subdomain (.create ..)                        => False
  | .subdomain (.setRegistryContract registry)     => registry = d.registry
  | .names (.registry (.register name _ _ _ _ _ _)) => ¬ Overlaps s.registry name
  | _                                              => True

/-- A transaction that commits spares the namespaces. -/
def Spares (out : Outside ω) (d : Deployment) (s : State ω) (t : Tx Call) : Prop :=
  (∃ s', step out d s t = .ok s') → SparesNamespaces d s t.call

/-! ## Namespaces apart -/

theorem not_under_self (p : Bytes) : ¬ Under p p := by
  rintro ⟨_, label, h⟩
  have hlen := congrArg List.length h
  -- a name under `p` is longer than `p`
  simp only [List.length_append, List.length_cons] at hlen
  omega

/-- No registered name is under another. -/
def Apart (g : Registry.State) : Prop :=
  ∀ fqdn p e e', Under fqdn p → g.entry p = some e → g.entry fqdn ≠ some e'

/-- **There is nothing for the two contracts to disagree about.** -/
structure Clear (d : Deployment) (s : State ω) : Prop where
  wired   : Wired d s
  entries : Registry.Consistent s.registry
  indexed : Subdomain.Indexed s.world.1
  bare    : ∀ fqdn, s.world.1.subdomain fqdn = none
  apart   : Apart s.registry

theorem clear_deployed (d : Deployment) (admin : Address) (w : ω) : Clear d (deployed d admin w) where
  wired   := wired_deployed d admin w
  entries := Registry.consistent_empty
  indexed := Subdomain.indexed_empty.congr rfl rfl rfl rfl
  bare    := fun _ => rfl
  apart   := by
    intro fqdn p e e' _ hp
    cases hp

/-- Wired, the resolver takes a record from the owner of the registry entry, while it is Active. -/
theorem setsRecord_iff (hw : Wired d s) {c : Address} {address : Bytes} {now : UInt64} :
    SetsRecord out d env s fqdn c address now ↔
      env.Authorises c ∧ validateFqdnSoroban fqdn = .ok () ∧
      ∃ e, s.registry.entry fqdn = some e ∧ e.isActiveAt now ∧ e.owner = c := by
  rw [SetsRecord, Resolver.setRecord_accepted_iff hw.resolver]
  refine and_congr_right fun _ => and_congr_right fun hvalid => exists_congr fun e => ?_
  have hresolve : (RegistryResolver.theRegistry (aroundNames out d) d.toDeployment).registryResolve d.registry fqdn
        now (s.registry, s.world) = some e ↔ s.registry.entry fqdn = some e ∧ e.isActiveAt now := by
    simp only [RegistryResolver.theRegistry, if_true]
    rw [toOption_eq_some, Registry.resolve_eq_ok]
    exact and_iff_right hvalid
  rw [hresolve, and_assoc]

theorem Clear.controlled (h : Clear d s) : Controlled out d s := by
  intro p fqdn env c address now hunder hactive _
  rw [setsRecord_iff h.wired]
  obtain ⟨e, hp, _⟩ := Registry.nameState_active_iff.mp hactive
  -- under an Active name neither contract knows anything
  constructor
  · rintro ⟨_, _, e', hf, _⟩
    exact absurd hf (h.apart fqdn p e e' hunder hp)
  · rintro ⟨record, hrecord, _⟩
    cases (h.bare fqdn).symm.trans hrecord

/-- At time 0 every registered name is Active, and its owner could set a record. -/
theorem Controlled.apart (h : Controlled out d s) (hw : Wired d s) (hentries : Registry.Consistent s.registry)
    (hbare : ∀ fqdn, s.world.1.subdomain fqdn = none) : Apart s.registry := by
  intro fqdn p e e' hunder hp hf
  have hactive : Registry.nameState s.registry p 0 = .active :=
    Registry.nameState_active_iff.mpr ⟨e, hp, UInt64.zero_le⟩
  have hauth : (⟨0, [e'.owner], none⟩ : Env).Authorises e'.owner := Or.inl (List.mem_singleton.mpr rfl)
  -- the owner of the lower name could set its record, so by control they own a subdomain there
  have hsets : SetsRecord out d ⟨0, [e'.owner], none⟩ s fqdn e'.owner [] 0 :=
    (setsRecord_iff hw).mpr ⟨hauth, (hentries.entry fqdn e' hf).fqdn, e', hf, UInt64.zero_le, rfl⟩
  obtain ⟨record, hrecord, _⟩ := (h p fqdn _ _ _ _ hunder hactive hauth).mp hsets
  cases (hbare fqdn).symm.trans hrecord

/-! ## One step -/

/-- A name on file after a registry call was there before, or the call registered it. -/
theorem entry_from {c : Registry.Call} {g g' : Registry.State} (h : Registry.Change env g g' c)
    (he : g'.entry fqdn = some e) :
    (∃ e₀, g.entry fqdn = some e₀) ∨
      ∃ owner target uri now expiresAt grace, c = .register fqdn owner target uri now expiresAt grace := by
  have hset : ∀ {name : Bytes} {old new : RegistryEntry}, g.entry name = some old →
      g.entry.set name new fqdn = some e → ∃ e₀, g.entry fqdn = some e₀ := by
    intro name old new hold hnew
    rcases Store.set_eq_some.mp hnew with ⟨rfl, _⟩ | ⟨_, hkept⟩
    · exact ⟨old, hold⟩
    · exact ⟨e, hkept⟩
  cases h with
  | frame _ hentry _ =>
      rw [hentry] at he
      exact Or.inl ⟨e, he⟩
  | rewrite _ hold _ _ _ _ _ _ hentry _ =>
      rw [hentry] at he
      exact Or.inl (hset hold he)
  | renew hold _ _ _ _ _ _ hentry _ =>
      rw [hentry] at he
      exact Or.inl (hset hold he)
  | move hold _ _ hentry _ =>
      rw [hentry] at he
      exact Or.inl (hset hold he)
  | burn _ _ _ hentry _ =>
      rw [hentry] at he
      exact Or.inl ⟨e, (Store.remove_eq_some.mp he).2⟩
  | @register name owner target uri now expiresAt grace _ _ _ _ _ hentry _ =>
      rw [hentry] at he
      rcases Store.set_eq_some.mp he with ⟨rfl, _⟩ | ⟨_, hkept⟩
      · exact Or.inr ⟨owner, target, uri, now, expiresAt, grace, rfl⟩
      · exact Or.inl ⟨e, hkept⟩

theorem Apart.of_subset {g g' : Registry.State} (h : Apart g)
    (hfrom : ∀ n e, g'.entry n = some e → ∃ e₀, g.entry n = some e₀) : Apart g' := by
  intro fqdn p e e' hunder hp hf
  obtain ⟨e₀, hp₀⟩ := hfrom p e hp
  obtain ⟨e₀', hf₀⟩ := hfrom fqdn e' hf
  exact h fqdn p e₀ e₀' hunder hp₀ hf₀

/-- Registering a name keeps the names apart iff none on file is above or below it. -/
theorem Apart.register_iff {g g' : Registry.State} {name : Bytes} (h : Apart g)
    (hentry : g'.entry = g.entry.set name e) : Apart g' ↔ ¬ Overlaps g name := by
  have hself : g'.entry name = some e := by
    rw [hentry]
    exact Store.set_self _ _ _
  have hother : ∀ n, n ≠ name → g'.entry n = g.entry n := by
    intro n hn
    rw [hentry]
    exact Store.set_ne _ _ hn
  constructor
  · rintro hapart ⟨other, e', he', hunder⟩
    have hne : other ≠ name := by
      rintro rfl
      exact hunder.elim (not_under_self other) (not_under_self other)
    have hkept := (hother other hne).trans he'
    rcases hunder with hbelow | habove
    · exact hapart name other e' e hbelow hkept hself
    · exact hapart other name e e' habove hself hkept
  · intro hnone fqdn p e₁ e₂ hunder hp hf
    -- the new name is the upper one of the two, the lower one, or neither
    by_cases hpn : p = name
    · subst hpn
      have hne : fqdn ≠ p := by
        rintro rfl
        exact not_under_self fqdn hunder
      exact hnone ⟨fqdn, e₂, (hother fqdn hne).symm.trans hf, Or.inr hunder⟩
    · have hp₀ := (hother p hpn).symm.trans hp
      by_cases hfn : fqdn = name
      · subst hfn
        exact hnone ⟨p, e₁, hp₀, Or.inl hunder⟩
      · exact h fqdn p e₁ e₂ hunder hp₀ ((hother fqdn hfn).symm.trans hf)

/-- **Nobody controls a new subdomain**: its parent is Active at the ledger time, and the resolver asks a registry
    that has no entry for it. -/
theorem Clear.create_breaks (h : Clear d s) {label : Bytes} {caller owner : Address} {now : UInt64}
    (hok : step out d s ⟨env, .subdomain (.create label p caller owner now)⟩ = .ok s') (hw : Wired d s') :
    ¬ Controlled out d s' := by
  intro hcontrolled
  obtain ⟨u, hu, rfl⟩ := step_subdomain_eq_ok.mp hok
  obtain ⟨⟨u', fqdn⟩, hcreate, hu'⟩ := bind_eq_ok.mp hu
  obtain rfl := pure_eq_ok.mp hu'
  obtain ⟨⟨rec, _, hactive, hparent, _⟩, rfl, _, rfl⟩ := Subdomain.create_ok hcreate
  have hunder : Under (label ++ dot :: p) p := ⟨h.indexed.base p rec hparent, label, rfl⟩
  obtain ⟨e, he, hnow⟩ := RegistrySubdomain.entry_of_parentActive
    (s := ⟨s.registry, s.world.1, s.world.2⟩) h.wired.subdomain hactive
  have hstate : Registry.nameState s.registry p env.timestamp = .active :=
    Registry.nameState_active_iff.mpr ⟨e, he, hnow⟩
  have hauth : (⟨env.timestamp, [owner], none⟩ : Env).Authorises owner := Or.inl (List.mem_singleton.mpr rfl)
  -- by control the owner could set a record at the ledger time, so the registry has an entry for the name
  have hsets := (hcontrolled p _ _ owner [] env.timestamp hunder hstate hauth).mpr
    ⟨_, Store.set_self s.world.1.subdomain (label ++ dot :: p) ⟨p, owner, now⟩, rfl⟩
  obtain ⟨_, _, e', hf, _⟩ := (setsRecord_iff hw).mp hsets
  exact h.apart _ p e e' hunder he hf

/-- What a transaction that spares the namespaces leaves is clear again. -/
theorem Clear.next (h : Clear d s) {c : Call} (hok : step out d s ⟨env, c⟩ = .ok s')
    (hspares : SparesNamespaces d s c) : Clear d s' := by
  cases c with
  | subdomain c =>
      have hwired : Wired d s' := by
        refine (h.wired.step_iff hok).mpr ?_
        intro r hr
        cases c with
        | setRegistryContract registry =>
            obtain rfl : registry = r := Option.some.inj hr
            exact hspares
        | _ => cases hr
      obtain ⟨u, hu, rfl⟩ := step_subdomain_eq_ok.mp hok
      have hindexed : Subdomain.Indexed u :=
        Subdomain.preserves_indexed (aroundSubdomain out d) _ ((s.registry, s.world.2), ⟨env, c⟩) _ h.indexed hu
      refine ⟨hwired, h.entries, hindexed, ?_, h.apart⟩
      -- what is stored was stored before, as nothing was created
      intro fqdn
      cases hrecord : u.subdomain fqdn with
      | none => rfl
      | some record =>
          rcases (Subdomain.step_effect hu).origin hrecord with ⟨⟨old, hold, _⟩, _⟩ | hcreated
          · cases (h.bare fqdn).symm.trans hold
          · cases c with
            | create => exact absurd hspares id
            | _ => cases hcreated
  | names c =>
      have hwired : Wired d s' := by
        refine (h.wired.step_iff hok).mpr ?_
        rintro r ⟨⟩
      have hsub := subdomain_of_names hok
      have hindexed : Subdomain.Indexed s'.world.1 := by
        rw [hsub]
        exact h.indexed
      have hbare : ∀ fqdn, s'.world.1.subdomain fqdn = none := by
        rw [hsub]
        exact h.bare
      cases c with
      | resolver c =>
          have hsame := registry_of_resolver hok
          exact ⟨hwired, hsame ▸ h.entries, hindexed, hbare, hsame ▸ h.apart⟩
      | registry c =>
          have hchange := registry_change hok
          refine ⟨hwired, hchange.consistent h.entries, hindexed, hbare, ?_⟩
          cases c with
          | register name owner target uri now expiresAt grace =>
              -- only a registration adds an entry
              cases hchange with
              | register _ _ _ _ _ hentry _ => exact (h.apart.register_iff hentry).mpr hspares
              | frame hquiet _ _ => cases hquiet
              | rewrite hquiet _ _ _ _ _ _ _ _ _ => cases hquiet
              | move _ _ hcall _ _ => rcases hcall with ⟨_, hcall⟩ | ⟨_, hcall⟩ <;> cases hcall
          | _ =>
              refine h.apart.of_subset ?_
              intro n e he
              rcases entry_from hchange he with hold | ⟨_, _, _, _, _, _, hcall⟩
              · exact hold
              · cases hcall

/-- A transaction after which the contracts are wired and subdomain owners in control has spared the namespaces. -/
theorem Clear.spared (h : Clear d s) {c : Call} (hok : step out d s ⟨env, c⟩ = .ok s') (hw : Wired d s')
    (hcontrolled : Controlled out d s') : SparesNamespaces d s c := by
  cases c with
  | subdomain c =>
      cases c with
      | create label p caller owner now => exact absurd hcontrolled (h.create_breaks hok hw)
      | setRegistryContract registry => exact (h.wired.step_iff hok).mp hw registry rfl
      | _ => trivial
  | names c =>
      cases c with
      | resolver c => trivial
      | registry c =>
          cases c with
          | register name owner target uri now expiresAt grace =>
              have hchange := registry_change hok
              have hbare : ∀ fqdn, s'.world.1.subdomain fqdn = none := by
                rw [subdomain_of_names hok]
                exact h.bare
              -- control after the call keeps the names apart, and the call registered one
              have hapart := hcontrolled.apart hw (hchange.consistent h.entries) hbare
              cases hchange with
              | register _ _ _ _ _ hentry _ => exact (h.apart.register_iff hentry).mp hapart
              | frame hquiet _ _ => cases hquiet
              | rewrite hquiet _ _ _ _ _ _ _ _ _ => cases hquiet
              | move _ _ hcall _ _ => rcases hcall with ⟨_, hcall⟩ | ⟨_, hcall⟩ <;> cases hcall
          | _ => trivial

/-- **One transaction, exactly.** -/
theorem Clear.controlledAfter_iff (h : Clear d s) (t : Tx Call) : ControlledAfter out d s t ↔ Spares out d s t := by
  obtain ⟨env, c⟩ := t
  refine exec_iff (P := fun s => Wired d s ∧ Controlled out d s) ⟨h.wired, h.controlled⟩ ?_
  intro s' hok
  constructor
  · rintro ⟨hw, hcontrolled⟩
    exact h.spared hok hw hcontrolled
  · intro hspares
    have hnext := h.next hok hspares
    exact ⟨hnext.wired, hnext.controlled⟩

/-! ## Whole runs -/

/-- **Subdomain owners control their records throughout a run iff the run spares the namespaces.** Any run of the three
    contracts from the wired deployment, anybody calling anything: after every transaction the contracts are wired and
    every record under an Active base name can be set by exactly the owner of the subdomain, iff no subdomain is
    created, no name is registered above or below a registered one, and the subdomain contract is not connected to
    another registry. -/
theorem controlled_iff (out : Outside ω) (d : Deployment) (admin : Address) (w : ω) (ts : List (Tx Call)) :
    Along (step out d) (ControlledAfter out d) (deployed d admin w) ts ↔
      Along (step out d) (Spares out d) (deployed d admin w) ts := by
  refine along_iff (I := Clear d) (fun s t h => h.controlledAfter_iff t) ?_ (clear_deployed d admin w)
  intro s t h hafter
  have hspares := (h.controlledAfter_iff t).mp hafter
  apply exec_of_ok h
  intro s' hok
  exact h.next hok (hspares ⟨s', hok⟩)

/-! ## A subdomain whose owner the resolver does not know -/

namespace Squatter

open Cast

/-- Alice delegates `pay.alice.xlm` to Bob, and Mallory registers the same name in the registry. -/
def delegate : List (Tx Call) :=
  [⟨⟨1000, [alice], none⟩, .names (.registry (.register aliceXlm alice none none 1000 5000 6000))⟩,
   ⟨⟨1000, [alice], none⟩, .subdomain (.registerParent aliceXlm alice)⟩,
   ⟨⟨1000, [alice], none⟩, .subdomain (.create (ascii "pay") aliceXlm alice bob 1000)⟩,
   ⟨⟨1000, [mallory], none⟩, .names (.registry (.register payAliceXlm mallory none none 1000 5000 6000))⟩]

/-- The three contracts after that. -/
def after : State Unit := run (step nothingOutside contracts) (deployed contracts alice ()) delegate

/-- **Subdomain control fails on the code**: Bob owns `pay.alice.xlm` and cannot set its record, Mallory does not and
    can. -/
theorem squatter_sets_the_record :
    OwnsSubdomain after payAliceXlm bob ∧
    ¬ SetsRecord nothingOutside contracts ⟨1000, [bob], none⟩ after payAliceXlm bob bob.strkey 1000 ∧
    SetsRecord nothingOutside contracts ⟨1000, [mallory], none⟩ after payAliceXlm mallory mallory.strkey 1000 ∧
    ¬ Along (step nothingOutside contracts) (ControlledAfter nothingOutside contracts)
      (deployed contracts alice ()) delegate := by
  have howns : OwnsSubdomain after payAliceXlm bob := ⟨⟨aliceXlm, bob, 1000⟩, by decide +kernel, rfl⟩
  have hbob : ¬ SetsRecord nothingOutside contracts ⟨1000, [bob], none⟩ after payAliceXlm bob bob.strkey 1000 := by
    unfold SetsRecord
    rw [exists_eq_ok_iff]
    decide +kernel
  have hmallory : SetsRecord nothingOutside contracts ⟨1000, [mallory], none⟩ after payAliceXlm mallory
      mallory.strkey 1000 := by
    unfold SetsRecord
    rw [exists_eq_ok_iff]
    decide +kernel
  refine ⟨howns, hbob, hmallory, ?_⟩
  rintro ⟨_, _, _, ⟨_, hcontrolled⟩, _⟩
  have hunder : Under payAliceXlm aliceXlm := ⟨by decide, ascii "pay", by decide⟩
  have hactive : Registry.nameState after.registry aliceXlm 1000 = .active := by decide +kernel
  have hauth : (⟨1000, [bob], none⟩ : Env).Authorises bob := by decide
  exact hbob ((hcontrolled aliceXlm payAliceXlm _ bob bob.strkey 1000 hunder hactive hauth).mpr howns)

end Squatter

end XlmNs.Delegation
