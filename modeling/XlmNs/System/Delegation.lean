import XlmNs.Registry.Correctness.OwnerIndex
import XlmNs.Subdomain.Records
import XlmNs.System.RegistryResolver
import XlmNs.System.RegistrySubdomain

/-!
# `System.Delegation` — registry, resolver and subdomain contract wired together

The machine of `System.RegistryResolver` with the subdomain contract in its outside world: the subdomain contract asks
the registry, and the resolver asks the subdomain contract for its `max_depth`. `Wired` says that both ask the
contracts of the deployment; only `set_registry_contract` can undo it.
-/

namespace XlmNs.Delegation

open Soroban

/-- The addresses the three contracts are deployed at. -/
structure Deployment extends RegistryResolver.Deployment where
  subdomain : Address

/-- The deployment of the concrete runs. -/
def contracts : Deployment := ⟨RegistryResolver.contracts, Cast.subdomain⟩

/-- The storage of the three contracts, and the state of everything else. -/
abbrev State (ω : Type) := RegistryResolver.State (Subdomain.State × ω)

/-- A transaction invokes one of the three contracts. -/
inductive Call
  | names (c : RegistryResolver.Call)
  | subdomain (c : Subdomain.Call)

/-- How a transaction fails, in the contract it invoked. -/
inductive Failure
  | names (f : RegistryResolver.Failure)
  | subdomain (f : Fault Subdomain.SubdomainError)

/-- What the three contracts rely on outside them. -/
structure Outside (ω : Type) where
  names  : RegistryResolver.Outside ω
  /-- registries other than the one of the deployment -/
  others : Subdomain.Outside ω

/-- A world in which no call comes through. -/
def nothingOutside : Outside Unit := ⟨RegistryResolver.nothingOutside, Subdomain.nothingOutside⟩

variable {ω : Type}

/-- The outside world of registry and resolver: the subdomain contract at its address is the real one. -/
def aroundNames (out : Outside ω) (d : Deployment) : RegistryResolver.Outside (Subdomain.State × ω) where
  addressFromString := out.names.addressFromString
  nft env nft call uw := (out.names.nft env nft call uw.2).map (fun w => (uw.1, w))
  clearReverseRecord env resolver name previousOwner uw :=
    (out.names.clearReverseRecord env resolver name previousOwner uw.2).map (fun w => (uw.1, w))
  maxDepth address uw :=
    if address = d.subdomain then some (Subdomain.maxDepth uw.1) else out.names.maxDepth address uw.2

/-- The outside world of the subdomain contract: the registry at its address is the real one. -/
def aroundSubdomain (out : Outside ω) (d : Deployment) : Subdomain.Outside (Registry.State × ω) :=
  RegistrySubdomain.theRegistry ⟨out.names.toOutside, out.others⟩ d.registry

/-- The three contracts just after deployment: the resolver initialised, and both connected to the registry. -/
def deployed (d : Deployment) (admin : Address) (w : ω) : State ω :=
  RegistryResolver.deployed d.toDeployment admin
    ({ Subdomain.State.empty with
      registryContract := some d.registry, admin := some admin, maxDepth := some 3
      contractVersion := some XlmNs.contractVersion }, w)

/-- **One transaction**: it invokes one of the three contracts, which may call the others. -/
def step (out : Outside ω) (d : Deployment) (s : State ω) (t : Tx Call) : Except Failure (State ω) :=
  match t.call with
  | .names c => embed id Failure.names (RegistryResolver.step (aroundNames out d) d.toDeployment s ⟨t.env, c⟩)
  | .subdomain c =>
      embed (fun u => { s with world := (u, s.world.2) }) Failure.subdomain
        (Subdomain.step (aroundSubdomain out d) (s.registry, s.world.2) s.world.1 ⟨t.env, c⟩)

variable {out : Outside ω} {d : Deployment} {env : Env} {s s' : State ω}

theorem step_names_eq_ok {c : RegistryResolver.Call} :
    step out d s ⟨env, .names c⟩ = .ok s' ↔
      RegistryResolver.step (aroundNames out d) d.toDeployment s ⟨env, c⟩ = .ok s' := by
  refine embed_eq_ok.trans ⟨?_, fun h => ⟨_, h, rfl⟩⟩
  rintro ⟨_, h, rfl⟩
  exact h

theorem step_subdomain_eq_ok {c : Subdomain.Call} :
    step out d s ⟨env, .subdomain c⟩ = .ok s' ↔
      ∃ u, Subdomain.step (aroundSubdomain out d) (s.registry, s.world.2) s.world.1 ⟨env, c⟩ = .ok u ∧
        s' = { s with world := (u, s.world.2) } := by
  refine embed_eq_ok.trans (exists_congr fun u => and_congr_right fun _ => ?_)
  exact eq_comm

/-- A registry call is a registry invocation. -/
theorem registry_change {c : Registry.Call} (h : step out d s ⟨env, .names (.registry c)⟩ = .ok s') :
    Registry.Change env s.registry s'.registry c :=
  Registry.step_change (RegistryResolver.step_registry_eq_ok.mp (step_names_eq_ok.mp h))

/-- A resolver call leaves the registry alone. -/
theorem registry_of_resolver {c : Resolver.Call} (h : step out d s ⟨env, .names (.resolver c)⟩ = .ok s') :
    s'.registry = s.registry :=
  (RegistryResolver.step_resolver_eq_ok.mp (step_names_eq_ok.mp h)).1

/-- Calls of registry and resolver leave the subdomain contract alone. -/
theorem subdomain_of_names {c : RegistryResolver.Call} (h : step out d s ⟨env, .names c⟩ = .ok s') :
    s'.world.1 = s.world.1 := by
  have h := step_names_eq_ok.mp h
  cases c with
  | resolver c => rw [(RegistryResolver.step_resolver_eq_ok.mp h).2.1]
  | registry c =>
      have hcall := RegistryResolver.step_registry_eq_ok.mp h
      refine Registry.step_world (I := fun rw : Resolver.State × (Subdomain.State × ω) =>
        rw.2.1 = s.world.1) ?_ ?_ hcall rfl
      -- the nested call stays in the outside world it is given
      · intro nft _ env call rw rw' hnft hrw
        obtain ⟨uw, huw, rfl⟩ := Option.map_eq_some_iff.mp hnft
        obtain ⟨_, _, rfl⟩ := Option.map_eq_some_iff.mp huw
        exact hrw
      · intro env resolver name previousOwner rw rw' hclear hrw
        simp only [RegistryResolver.theResolver] at hclear
        split at hclear
        · obtain ⟨_, _, rfl⟩ := Option.map_eq_some_iff.mp hclear
          exact hrw
        · obtain ⟨uw, huw, rfl⟩ := Option.map_eq_some_iff.mp hclear
          obtain ⟨_, _, rfl⟩ := Option.map_eq_some_iff.mp huw
          exact hrw

/-! ## Wiring -/

/-- Resolver and subdomain contract are both configured with the registry of the deployment. -/
structure Wired (d : Deployment) (s : State ω) : Prop where
  resolver  : s.resolver.registry = some d.registry
  subdomain : s.world.1.registryContract = some d.registry

theorem wired_deployed (d : Deployment) (admin : Address) (w : ω) : Wired d (deployed d admin w) := ⟨rfl, rfl⟩

/-- The registry a call connects the subdomain contract to. -/
def Call.connects : Call → Option Address
  | .subdomain c => c.connects
  | .names _     => none

/-- **The wiring survives every transaction but one that connects the subdomain contract to another registry.** -/
theorem Wired.step_iff {c : Call} (hw : Wired d s) (h : step out d s ⟨env, c⟩ = .ok s') :
    Wired d s' ↔ ∀ r ∈ c.connects, r = d.registry := by
  cases c with
  | names c =>
      have hresolver := RegistryResolver.preserves_wired _ _ _ _ _ hw.resolver (step_names_eq_ok.mp h)
      refine iff_of_true ⟨hresolver, ?_⟩ ?_
      · rw [subdomain_of_names h]
        exact hw.subdomain
      · rintro r ⟨⟩
  | subdomain c =>
      obtain ⟨u, hu, rfl⟩ := step_subdomain_eq_ok.mp h
      -- the subdomain contract is connected to whatever the call names, or to the same registry as before
      have hconnected : u.registryContract = c.connects.or (some d.registry) := by
        rw [Subdomain.step_registryContract hu, hw.subdomain]
      constructor
      · intro hwired r hr
        have hr' : c.connects = some r := hr
        have : u.registryContract = some d.registry := hwired.subdomain
        rw [hconnected, hr'] at this
        exact Option.some.inj this
      · intro hsame
        refine ⟨hw.resolver, ?_⟩
        show u.registryContract = some d.registry
        rw [hconnected]
        cases hc : c.connects with
        | none => rfl
        | some r => exact congrArg some (hsame r hc)

end XlmNs.Delegation
