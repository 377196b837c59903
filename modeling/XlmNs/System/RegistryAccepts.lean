import XlmNs.Registrar.Correctness.GraceBounds
import XlmNs.Registry.Correctness.Lifecycle
import XlmNs.System.Agreement

/-!
# `System.RegistryAccepts` — does the registry ever reject what the registrar accepted?

A sale that passes the registrar's checks makes one nested registry call. Where the two contracts are in step, the
name is unlocked and no NFT contract interferes, the registry's own checks follow from the registrar's and from what
`Sound` says of every reachable state; the one that does not is the host's: in the nested call the registrar is the
invoker, so an owner who authorised the sale merely by being its invoker has not authorised that call
(`accepts_covered`).
-/

namespace XlmNs.RegistrarRegistry

open Soroban

variable {ω : Type} {out : Registry.Outside ω} {d : Deployment} {env : Env} {s s' : State ω}
variable {name : Bytes} {now : UInt64}

/-! ## What holds of both contracts along any run -/

/-- The registrar calls this registry, and each contract's data invariant holds. -/
structure Sound (d : Deployment) (s : State ω) : Prop where
  wired   : s.registrar.registry = some d.registry
  grace   : Registrar.GraceBounded s.registrar
  entries : Registry.Consistent s.registry

theorem sound_deployed (d : Deployment) (admin : Address) (w : ω) : Sound d (deployed d admin w) :=
  ⟨rfl, Registrar.graceBounded_initialized _ _, Registry.consistent_empty⟩

theorem preserves_sound (out : Registry.Outside ω) (d : Deployment) : Preserves (step out d) (Sound d) := by
  intro s t s' hs hok
  obtain ⟨env, c⟩ := t
  cases c with
  | registry c =>
      obtain ⟨hr, hg⟩ := step_registry_eq_ok.mp hok
      have hentries := (Registry.step_change hg).consistent hs.entries
      refine ⟨?_, ?_, hentries⟩
      · rw [hr]
        exact hs.wired
      · rw [hr]
        exact hs.grace
  | registrar c =>
      have hstep := step_registrar_eq_ok.mp hok
      have hgrace := Registrar.preserves_graceBounded (theRegistry out d) d.registrar _ _ _ hs.grace hstep
      have hc := Registrar.step_change hstep
      generalize hgw : (s.registry, s.world) = gw at hc
      generalize hgw' : (s'.registry, s'.world) = gw' at hc
      -- the registrar's call reaches the registry through its own entrypoints only
      cases hc with
      | quiet _ _ hregistry _ _ _ hworld =>
          subst hgw hgw'
          have hsame : s'.registry = s.registry := (Prod.mk.inj hworld).1
          exact ⟨hregistry _ hs.wired, hgrace, hsame ▸ hs.entries⟩
      | register _ _ _ _ _ hstorage hcall =>
          subst hgw hgw'
          have hwired : s'.registrar.registry = some d.registry := by
            rw [hstorage]
            exact hs.wired
          exact ⟨hwired, hgrace, (registry_change_of_call hcall).consistent hs.entries⟩
      | renewal hr _ =>
          subst hgw hgw'
          have hwired : s'.registrar.registry = some d.registry := by
            rw [hr.storage]
            exact hs.wired
          exact ⟨hwired, hgrace, (registry_change_of_call hr.registry).consistent hs.entries⟩

/-! ## Sales that pass the registrar -/

/-- **Exactly in step**: the same names, with the same owner and bounds. -/
def InStep (s : State ω) : Prop :=
  Store.Mirrors SameTenure (fun _ => True) s.registrar.registration s.registry.entry

/-- The name a sale is about, and its `now_unix`. -/
def soldAt : Registrar.Call → Option (Bytes × UInt64)
  | .register label _ _ _ nowUnix          => (buildXlmName label).toOption.map (fun name => (name, nowUnix))
  | .renew name _ _ _ nowUnix              => some (name, nowUnix)
  | .extendDuringGrace name _ _ _ nowUnix => some (name, nowUnix)
  | _                                      => none

/-- The address that must authorise a sale. -/
def buyer : Registrar.Call → Option Address
  | .register _ owner _ _ _            => some owner
  | .renew _ caller _ _ _              => some caller
  | .extendDuringGrace _ caller _ _ _ => some caller
  | _                                  => none

/-- **A sale the registrar accepts**, of a name that is unlocked at that time, with the two contracts in step and no
    NFT contract configured. -/
structure Accepted (d : Deployment) (s : State ω) (env : Env) (c : Registrar.Call) : Prop where
  sale   : c.isSale = true
  inStep : InStep s
  free   : ∀ name now, soldAt c = some (name, now) → Registry.Undisturbed s.registry name now
  passes : ∃ r, Registrar.step Registrar.accepting d.registrar (s.registrar, ()) ⟨env, c⟩ = .ok (r, ())

/-- An entry with the tenure of a record on file. -/
theorem InStep.entry (h : InStep s) {record : Registrar.RegistrationRecord}
    (hr : s.registrar.registration name = some record) :
    ∃ e, s.registry.entry name = some e ∧ SameTenure record e := by
  obtain ⟨e, he⟩ := h.forth name record hr trivial
  obtain ⟨record', hr', hsame⟩ := h.back name e he
  obtain rfl := Option.some.inj (hr.symm.trans hr')
  exact ⟨e, he, hsame⟩

/-- A name whose record is past its grace period, or has none, is missing or claimable in the registry too. -/
theorem InStep.claimable (h : InStep s) (hs : Registry.Consistent s.registry)
    (hfree : ∀ existing ∈ s.registrar.registration name, existing.gracePeriodEndsAt < now) :
    Registry.nameState s.registry name now = .missing ∨ Registry.nameState s.registry name now = .claimable := by
  rw [Registry.nameState_missing_iff, Registry.nameState_claimable_iff hs]
  cases he : s.registry.entry name with
  | none => exact Or.inl rfl
  | some e =>
      obtain ⟨record, hr, _, _, hgrace⟩ := h.back name e he
      refine Or.inr ⟨e, rfl, ?_⟩
      show e.gracePeriodEndsAt < now
      rw [← hgrace]
      exact hfree record hr

/-! ## The nested call -/

/-- The registry takes a registration that passed the registrar, if the owner authorised it. -/
theorem registration_accepted_iff (hs : Sound d s) (h : InStep s) {label : Bytes} {owner : Address}
    {years nowUnix : UInt64} (hname : buildXlmName label = .ok name)
    (hfree : Registry.Undisturbed s.registry name nowUnix)
    (hold : ∀ existing ∈ s.registrar.registration name, existing.gracePeriodEndsAt < nowUnix) (w : ω) :
    (∃ gw, Registry.register out d.registry env s.registry w name owner none none nowUnix
      (Registrar.buildQuote s.registrar label years nowUnix).expiryUnix
      (Registrar.buildQuote s.registrar label years nowUnix).gracePeriodEndsAt = .ok gw) ↔ env.Authorises owner := by
  constructor
  · rintro ⟨⟨g', w'⟩, hok⟩
    exact (Registry.register_eq_ok.mp hok).1
  · intro hauth
    have huri : ∀ value ∈ (none : Option Bytes), value.length ≤ Registry.maxMetadataUriLength := by
      rintro value ⟨⟩
    have hnow : nowUnix ≤ (Registrar.buildQuote s.registrar label years nowUnix).expiryUnix :=
      Registrar.le_expiryFromNow nowUnix years
    -- the expiry is computed from `now_unix`, and the grace period from the expiry
    have hlife := (hs.grace.computed (Registrar.buildQuote s.registrar label years nowUnix).expiryUnix).1
    exact (Registry.register_iff_free hs.entries hauth hfree (validateFqdn_buildXlmName hname) huri hnow
      hlife).mpr (h.claimable hs.entries hold)

/-- The registry takes a renewal that passed the registrar, if the caller authorised it. -/
theorem renewal_accepted_iff (hs : Sound d s) (h : InStep s) {caller : Address} {years nowUnix : UInt64}
    {record : Registrar.RegistrationRecord} (hr : s.registrar.registration name = some record)
    (howner : record.owner = caller) (hopen : nowUnix ≤ record.gracePeriodEndsAt)
    (hyears : validateRegistrationYearsSoroban years = .ok ())
    (hfree : Registry.Undisturbed s.registry name nowUnix) (w : ω) :
    (∃ gw, Registry.renew out d.registry env s.registry w name caller
      (expiryFromNow (Registrar.baseTime record nowUnix) years)
      (Registrar.computeGracePeriodEndsAt s.registrar (expiryFromNow (Registrar.baseTime record nowUnix) years))
      nowUnix = .ok gw) ↔ env.Authorises caller := by
  constructor
  · rintro ⟨⟨g', w'⟩, hok⟩
    exact (Registry.renew_eq_ok.mp hok).1
  · intro hauth
    obtain ⟨e, he, howner', hexp, hgrace⟩ := h.entry hr
    obtain rfl : e.owner = caller := howner'.symm.trans howner
    have hbounded := hs.grace.record name record hr
    have hbase := Registrar.le_baseTime record nowUnix
    have hlater := Registrar.le_expiryFromNow (Registrar.baseTime record nowUnix) years
    -- neither bound of the entry moves back, and the new expiry is not in the past
    have hexp' : e.expiresAt ≤ expiryFromNow (Registrar.baseTime record nowUnix) years := by
      rw [← hexp]
      exact UInt64.le_trans hbase.1 hlater
    have hgrace' : e.gracePeriodEndsAt ≤ Registrar.computeGracePeriodEndsAt s.registrar
        (expiryFromNow (Registrar.baseTime record nowUnix) years) := by
      rw [← hgrace]
      exact Registrar.grace_never_shrinks hbounded hyears s.registrar nowUnix
    have hnow := UInt64.le_trans hbase.2 hlater
    have hlife := (hs.grace.computed (expiryFromNow (Registrar.baseTime record nowUnix) years)).1
    have hopen' : ¬ e.isClaimableAt nowUnix := by
      show ¬ e.gracePeriodEndsAt < nowUnix
      rw [← hgrace]
      exact UInt64.not_lt.mpr hopen
    have hphase := (Registry.nameState_open_iff hs.entries he).mpr hopen'
    exact (Registry.OwnerCalls.renew_iff ⟨he, hauth, hfree⟩ hs.entries hexp' hgrace' hnow hlife).mpr hphase

/-- **The nested call fails for want of the buyer's authority only.** -/
theorem nested_accepted_iff (out : Registry.Outside ω) {c : Registrar.Call} (hs : Sound d s) (ha : Accepted d s env c)
    {who : Address} (hbuyer : buyer c = some who) :
    ∃ call, c.nested s.registrar = some call ∧ ∀ env' w,
      ((∃ gw, Registry.step out d.registry (s.registry, w) ⟨env', entrypoint call⟩ = .ok gw) ↔
        env'.Authorises who) := by
  obtain ⟨r, hpass⟩ := ha.passes
  cases c with
  | register label owner years maxPrice nowUnix =>
      obtain rfl := Option.some.inj hbuyer
      -- what the registrar checked on the way
      obtain ⟨_, _, _, _, _, _, _, name, hname, hold, _, _⟩ := Registrar.register_eq_ok.mp hpass
      have hfree := ha.free name nowUnix (by rw [soldAt, hname]; rfl)
      refine ⟨_, by rw [Registrar.Call.nested, hname]; rfl, ?_⟩
      intro env' w
      exact registration_accepted_iff hs ha.inStep hname hfree hold w
  | renew name caller years payment nowUnix =>
      obtain rfl := Option.some.inj hbuyer
      obtain ⟨_, _, _, hyears, record, hr, howner, hopen, _⟩ := Registrar.renew_eq_ok.mp hpass
      refine ⟨_, congrArg (Option.map _) hr, ?_⟩
      intro env' w
      exact renewal_accepted_iff hs ha.inStep hr howner hopen hyears (ha.free name nowUnix rfl) w
  | extendDuringGrace name caller years payment nowUnix =>
      obtain rfl := Option.some.inj hbuyer
      obtain ⟨_, _, _, hyears, record, hr, howner, _, hopen, _⟩ := Registrar.extendDuringGrace_eq_ok.mp hpass
      refine ⟨_, congrArg (Option.map _) hr, ?_⟩
      intro env' w
      exact renewal_accepted_iff hs ha.inStep hr howner hopen hyears (ha.free name nowUnix rfl) w
  | _ => cases hbuyer

/-- A sale that passes the registrar commits iff the registry takes its nested call. -/
theorem sale_commits_iff {c : Registrar.Call} (hs : Sound d s) (ha : Accepted d s env c)
    {call : Registrar.RegistryCall} (hcall : c.nested s.registrar = some call) :
    (∃ s', step out d s ⟨env, .registrar c⟩ = .ok s') ↔
      ∃ gw, Registry.step out d.registry (s.registry, s.world) ⟨env.callFrom d.registrar, entrypoint call⟩
        = .ok gw := by
  obtain ⟨r, hpass⟩ := ha.passes
  have hreal : ∀ gw, (theRegistry out d).registry (env.callFrom d.registrar) d.registry call
        (s.registry, s.world) = some gw ↔
      Registry.step out d.registry (s.registry, s.world) ⟨env.callFrom d.registrar, entrypoint call⟩ = .ok gw := by
    intro gw
    simp only [theRegistry, if_pos]
    exact toOption_eq_some
  -- passing the checks and writing does not depend on what the registry does, which only accepts or not
  constructor
  · rintro ⟨s', hok⟩
    obtain ⟨_, call', hcall', hnested⟩ := (Registrar.sale_eq_ok ha.sale).mp (step_registrar_eq_ok.mp hok)
    obtain rfl := Option.some.inj (hcall.symm.trans hcall')
    obtain ⟨registry, hregistry, hgw⟩ := Registrar.callRegistry_eq_ok.mp hnested
    obtain rfl := Option.some.inj (hs.wired.symm.trans hregistry)
    exact ⟨_, (hreal _).mp hgw⟩
  · rintro ⟨⟨g', w'⟩, hgw⟩
    refine ⟨⟨r, g', w'⟩, step_registrar_eq_ok.mpr ((Registrar.sale_eq_ok ha.sale).mpr ⟨hpass, call, hcall, ?_⟩)⟩
    exact Registrar.callRegistry_eq_ok.mpr ⟨d.registry, hs.wired, (hreal _).mpr hgw⟩

/-! ## Whole runs -/

/-- The registry never rejects what the registrar accepted, and the two stay in step. -/
def NeverRejected (out : Registry.Outside ω) (d : Deployment) (s : State ω) (t : Tx Call) : Prop :=
  ∀ c, t.call = .registrar c → Accepted d s t.env c → ∃ s', step out d s t = .ok s' ∧ InStep s'

/-- **It rejects an accepted sale iff the buyer's authority does not reach the nested call**, and where the sale
    commits the two stay in step. -/
def RejectsUncovered (out : Registry.Outside ω) (d : Deployment) (s : State ω) (t : Tx Call) : Prop :=
  ∀ c who, t.call = .registrar c → buyer c = some who → Accepted d s t.env c →
    ((∃ s', step out d s t = .ok s') ↔ (t.env.callFrom d.registrar).Authorises who) ∧
      ∀ s', step out d s t = .ok s' → InStep s'

/-- **The registry takes every sale the registrar accepted whose buyer's authority covers the nested call.** Any run
    from the deployed contracts, any `set_grace_period` calls, anybody calling either contract; at every state in
    which the two are in step, every sale of an unlocked name at any `now_unix`. -/
theorem accepts_covered (out : Registry.Outside ω) (d : Deployment) (admin : Address) (w : ω)
    (ts : List (Tx Call)) : Along (step out d) (RejectsUncovered out d) (deployed d admin w) ts := by
  refine along_of_invariant (preserves_sound out d) ?_ ts (sound_deployed d admin w)
  rintro s ⟨env, _⟩ hs c who rfl hbuyer ha
  obtain ⟨call, hcall, hiff⟩ := nested_accepted_iff out hs ha hbuyer
  constructor
  · rw [sale_commits_iff hs ha hcall]
    exact hiff (env.callFrom d.registrar) s.world
  · intro s' hok
    exact (step_effect hok).mirrors ha.inStep

/-! ## A buyer the registry does not hear -/

namespace InvokingBuyer

open Cast

/-- A contract that buys for itself. -/
def vault : Address := ⟨ascii "CVAULT"⟩

/-- A contract buys a name for itself by calling the registrar. -/
def buy : Tx Call := ⟨⟨1000, [], some vault⟩, .registrar (.register (ascii "alice") vault 1 250000000 1000)⟩

/-- **The registry rejects a sale the registrar accepted**: for the nested call the vault is not the invoker. -/
theorem invoker_is_rejected :
    ¬ Along (step Registry.nothingOutside contracts) (NeverRejected Registry.nothingOutside contracts)
      (deployed contracts admin ()) [buy] := by
  rintro ⟨hnever, _⟩
  have hinStep : InStep (deployed contracts admin ()) := Store.Mirrors.empty _ _
  have hpass : ∃ rw, Registrar.step Registrar.accepting contracts.registrar
      ((deployed contracts admin ()).registrar, ())
      ⟨buy.env, .register (ascii "alice") vault 1 250000000 1000⟩ = .ok rw :=
    exists_eq_ok_iff.mpr (by decide +kernel)
  obtain ⟨⟨r, ⟨⟩⟩, hpass⟩ := hpass
  have hfree : ∀ name now, soldAt (.register (ascii "alice") vault 1 250000000 1000) = some (name, now) →
      Registry.Undisturbed (deployed contracts admin ()).registry name now := by
    intro name now _
    refine ⟨?_, rfl⟩
    intro lock hlock
    cases hlock
  obtain ⟨s', hok, _⟩ := hnever _ rfl ⟨rfl, hinStep, hfree, r, hpass⟩
  have hrejected : (step Registry.nothingOutside contracts (deployed contracts admin ()) buy).toOption.isSome = false := by
    decide +kernel
  rw [hok] at hrejected
  cases hrejected

end InvokingBuyer

end XlmNs.RegistrarRegistry
