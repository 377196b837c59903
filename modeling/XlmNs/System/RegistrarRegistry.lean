import XlmNs.Registrar.Steps
import XlmNs.Registry.Steps
import XlmNs.Soroban.Machine

/-!
# `System.RegistrarRegistry` — the registrar wired to the registry

The two contracts as one machine. A transaction invokes either of them; the registry calls a registrar
invocation makes run the registry's own code, with the registrar as their invoker. `Effect` says what a
committed transaction did to the registrar's records and the registry's entries.
-/

namespace XlmNs.RegistrarRegistry

open Soroban

/-- The addresses the two contracts are deployed at. -/
structure Deployment where
  registrar : Address
  registry  : Address

/-- The deployment of the concrete runs. -/
def contracts : Deployment := ⟨Cast.registrar, Cast.registry⟩

/-- The storage of both contracts, and the state of everything else. -/
structure State (ω : Type) where
  registrar : Registrar.State
  registry  : Registry.State
  world     : ω

/-- A transaction invokes one of the two contracts. -/
inductive Call
  | registrar (c : Registrar.Call)
  | registry (c : Registry.Call)

/-- How a transaction fails, in the contract it invoked. -/
inductive Failure
  | registrar (f : Fault Registrar.RegistrarError)
  | registry (f : Fault Registry.RegistryError)

/-- The registry entrypoint a registrar call reaches. -/
def entrypoint : Registrar.RegistryCall → Registry.Call
  | .register name owner targetAddress metadataUri nowUnix expiresAt gracePeriodEndsAt =>
      .register name owner targetAddress metadataUri nowUnix expiresAt gracePeriodEndsAt
  | .renew name caller expiresAt gracePeriodEndsAt nowUnix =>
      .renew name caller expiresAt gracePeriodEndsAt nowUnix

variable {ω : Type}

/-- The registrar's outside world when the registry is the real one. -/
def theRegistry (out : Registry.Outside ω) (d : Deployment) : Registrar.Outside (Registry.State × ω) where
  registry env address call gw :=
    if address = d.registry then
      (Registry.step out d.registry gw ⟨env, entrypoint call⟩).toOption
    else none

/-- The two contracts just after deployment, the registrar initialised with the registry's address. -/
def deployed (d : Deployment) (admin : Address) (w : ω) : State ω :=
  ⟨Registrar.State.initialized d.registry admin, Registry.State.empty, w⟩

/-- **One transaction**: it invokes one of the two contracts, which may call the other. -/
def step (out : Registry.Outside ω) (d : Deployment) (s : State ω) (t : Tx Call) :
    Except Failure (State ω) :=
  match t.call with
  | .registrar c =>
      embed (fun (r, g, w) => ⟨r, g, w⟩) Failure.registrar
        (Registrar.step (theRegistry out d) d.registrar (s.registrar, s.registry, s.world) ⟨t.env, c⟩)
  | .registry c =>
      embed (fun (g, w) => ⟨s.registrar, g, w⟩) Failure.registry
        (Registry.step out d.registry (s.registry, s.world) ⟨t.env, c⟩)

variable {out : Registry.Outside ω} {d : Deployment} {env : Env} {s s' : State ω}

theorem step_registrar_eq_ok {c : Registrar.Call} :
    step out d s ⟨env, .registrar c⟩ = .ok s' ↔
      Registrar.step (theRegistry out d) d.registrar (s.registrar, s.registry, s.world) ⟨env, c⟩
        = .ok (s'.registrar, s'.registry, s'.world) := by
  refine embed_eq_ok.trans ⟨?_, fun h => ⟨_, h, rfl⟩⟩
  rintro ⟨_, h, rfl⟩
  exact h

theorem step_registry_eq_ok {c : Registry.Call} :
    step out d s ⟨env, .registry c⟩ = .ok s' ↔
      s'.registrar = s.registrar ∧
        Registry.step out d.registry (s.registry, s.world) ⟨env, c⟩ = .ok (s'.registry, s'.world) := by
  refine embed_eq_ok.trans ⟨?_, ?_⟩
  · rintro ⟨_, h, rfl⟩
    exact ⟨rfl, h⟩
  · rintro ⟨hr, h⟩
    exact ⟨_, h, by rw [← hr]⟩

/-- A registry call of the registrar that succeeds is a committed registry invocation. -/
theorem registry_change_of_call {r : Registrar.State} {g g' : Registry.State} {w w' : ω}
    {call : Registrar.RegistryCall}
    (h : Registrar.callRegistry (theRegistry out d) d.registrar env r call (g, w) = .ok (g', w')) :
    Registry.Change (env.callFrom d.registrar) g g' (entrypoint call) := by
  obtain ⟨registry, _, hcall⟩ := Registrar.callRegistry_eq_ok.mp h
  simp only [theRegistry] at hcall
  split at hcall
  · exact Registry.step_change (toOption_eq_some.mp hcall)
  · cases hcall

/-! ## What a committed transaction did -/

/-- **Both stores, side by side.** A transaction changes neither store, sells a name in both, renews it in
    both, or is a registry invocation the registrar does not see. -/
inductive Effect (s s' : State ω) (env : Env) : Call → Prop
  | quiet {c : Registrar.Call} (hrecord : s'.registrar.registration = s.registrar.registration)
      (hentry : s'.registry = s.registry) (hcall : c.isSale = false) :
      Effect s s' env (.registrar c)
  | sale {label name : Bytes} {owner : Address} {years maxPrice nowUnix : UInt64}
      (hname : buildXlmName label = .ok name)
      (hrecord : s'.registrar.registration = s.registrar.registration.set name
        (Registrar.soldRecord name owner (Registrar.buildQuote s.registrar label years nowUnix) nowUnix))
      (hentry : s'.registry.entry = s.registry.entry.set name
        (Registry.freshEntry name owner none none nowUnix
          (Registrar.buildQuote s.registrar label years nowUnix).expiryUnix
          (Registrar.buildQuote s.registrar label years nowUnix).gracePeriodEndsAt)) :
      Effect s s' env (.registrar (.register label owner years maxPrice nowUnix))
  | renewal {c : Registrar.Call} {name : Bytes} {caller : Address} {years payment nowUnix : UInt64}
      {record : Registrar.RegistrationRecord} {e : RegistryEntry}
      (hcall : c = .renew name caller years payment nowUnix ∨
        c = .extendDuringGrace name caller years payment nowUnix)
      (hold : s.registrar.registration name = some record) (hold' : s.registry.entry name = some e)
      (howner : record.owner = caller) (howner' : e.owner = caller)
      (hrecord : s'.registrar.registration = s.registrar.registration.set name
        (Registrar.renewedRecord s.registrar record
          (expiryFromNow (Registrar.baseTime record nowUnix) years) payment nowUnix))
      (hentry : s'.registry.entry = s.registry.entry.set name { e with
        expiresAt         := expiryFromNow (Registrar.baseTime record nowUnix) years
        gracePeriodEndsAt := Registrar.computeGracePeriodEndsAt s.registrar
          (expiryFromNow (Registrar.baseTime record nowUnix) years) }) :
      Effect s s' env (.registrar c)
  | direct {c : Registry.Call} (hrecord : s'.registrar = s.registrar)
      (hchange : Registry.Change env s.registry s'.registry c) :
      Effect s s' env (.registry c)

/-- **Every committed transaction is an `Effect`.** -/
theorem step_effect {t : Tx Call} (h : step out d s t = .ok s') : Effect s s' t.env t.call := by
  obtain ⟨env, c⟩ := t
  cases c with
  | registry c =>
      obtain ⟨hr, hg⟩ := step_registry_eq_ok.mp h
      exact .direct hr (Registry.step_change hg)
  | registrar c =>
      have hc := Registrar.step_change (step_registrar_eq_ok.mp h)
      generalize hgw : (s.registry, s.world) = gw at hc
      generalize hgw' : (s'.registry, s'.world) = gw' at hc
      cases hc with
      | quiet hrecord _ _ _ _ hcall hworld =>
          subst hgw hgw'
          exact .quiet hrecord (Prod.mk.inj hworld).1 hcall
      | register hauth _ _ hname _ hstorage hcall =>
          subst hgw hgw'
          cases registry_change_of_call hcall with
          | register _ _ _ _ _ hentry _ => exact .sale hname (by rw [hstorage]; rfl) hentry
          | frame hq _ _ => cases hq
          | rewrite hq _ _ _ _ _ _ _ _ _ => cases hq
          | move _ _ hmove _ _ => rcases hmove with ⟨_, h⟩ | ⟨_, h⟩ <;> cases h
      | renewal hr hcall =>
          subst hgw hgw'
          cases registry_change_of_call hr.registry with
          | renew he howner _ _ _ _ _ hentry _ =>
              exact .renewal hcall hr.record_eq he hr.owner_eq howner (by rw [hr.storage]; rfl) hentry
          | frame hq _ _ => cases hq
          | rewrite hq _ _ _ _ _ _ _ _ _ => cases hq
          | move _ _ hmove _ _ => rcases hmove with ⟨_, h⟩ | ⟨_, h⟩ <;> cases h

end XlmNs.RegistrarRegistry
