import XlmNs.Registry.Steps
import XlmNs.Resolver.Steps
import XlmNs.Soroban.Machine

/-!
# `System.RegistryResolver` — the registry wired to the resolver

The two contracts as one machine. The resolver reads names from the registry's own storage, and the
`clear_reverse_record` call of a registry transfer runs the resolver's own code when an entry's resolver is this
one. NFT contracts, foreign resolvers and the subdomain contract stay parameters.
-/

namespace XlmNs.RegistryResolver

open Soroban

/-- The addresses the two contracts are deployed at. -/
structure Deployment where
  registry : Address
  resolver : Address

/-- The deployment of the concrete runs. -/
def contracts : Deployment := ⟨Cast.registry, Cast.resolver⟩

/-- The storage of both contracts, and the state of everything else. -/
structure State (ω : Type) where
  registry : Registry.State
  resolver : Resolver.State
  world    : ω

/-- A transaction invokes one of the two contracts. -/
inductive Call
  | registry (c : Registry.Call)
  | resolver (c : Resolver.Call)

/-- How a transaction fails, in the contract it invoked. -/
inductive Failure
  | registry (f : Fault Registry.RegistryError)
  | resolver (f : Fault Resolver.ResolverError)

/-- What both contracts rely on outside the two. -/
structure Outside (ω : Type) extends Registry.Outside ω where
  /-- `max_depth()` of the subdomain contract -/
  maxDepth : Address → ω → Option UInt32

/-- A world in which no call comes through. -/
def nothingOutside : Outside Unit where
  toOutside    := Registry.nothingOutside
  maxDepth _ _ := none

variable {ω : Type}

/-- The registry's outside world: the resolver at its address is the real one. -/
def theResolver (out : Outside ω) (d : Deployment) : Registry.Outside (Resolver.State × ω) where
  addressFromString := out.addressFromString
  nft env nft call rw := (out.nft env nft call rw.2).map (fun w => (rw.1, w))
  clearReverseRecord env resolver name previousOwner rw :=
    if resolver = d.resolver then
      (Resolver.clearReverseRecord env rw.1 name previousOwner).toOption.map (fun r => (r, rw.2))
    else (out.clearReverseRecord env resolver name previousOwner rw.2).map (fun w => (rw.1, w))

/-- The resolver's outside world: the registry at its address is the real one. -/
def theRegistry (out : Outside ω) (d : Deployment) : Resolver.Outside (Registry.State × ω) where
  registryResolve address name nowUnix gw :=
    if address = d.registry then (Registry.resolve gw.1 name nowUnix).toOption else none
  maxDepth address gw := out.maxDepth address gw.2

/-- The two contracts just after deployment, the resolver initialised with the registry's address. -/
def deployed (d : Deployment) (admin : Address) (w : ω) : State ω where
  registry := Registry.State.empty
  resolver := { Resolver.State.empty with
    registry := some d.registry, admin := some admin, contractVersion := some XlmNs.contractVersion }
  world := w

/-- **One transaction**: it invokes one of the two contracts, which may call the other. -/
def step (out : Outside ω) (d : Deployment) (s : State ω) (t : Tx Call) : Except Failure (State ω) :=
  match t.call with
  | .registry c =>
      embed (fun (g, r, w) => ⟨g, r, w⟩) Failure.registry
        (Registry.step (theResolver out d) d.registry (s.registry, s.resolver, s.world) ⟨t.env, c⟩)
  | .resolver c =>
      embed (fun r => { s with resolver := r }) Failure.resolver
        (Resolver.step (theRegistry out d) (s.registry, s.world) s.resolver ⟨t.env, c⟩)

variable {out : Outside ω} {d : Deployment} {env : Env} {s s' : State ω}

theorem step_registry_eq_ok {c : Registry.Call} :
    step out d s ⟨env, .registry c⟩ = .ok s' ↔
      Registry.step (theResolver out d) d.registry (s.registry, s.resolver, s.world) ⟨env, c⟩
        = .ok (s'.registry, s'.resolver, s'.world) := by
  refine embed_eq_ok.trans ⟨?_, fun h => ⟨_, h, rfl⟩⟩
  rintro ⟨_, h, rfl⟩
  exact h

theorem step_resolver_eq_ok {c : Resolver.Call} :
    step out d s ⟨env, .resolver c⟩ = .ok s' ↔
      s'.registry = s.registry ∧ s'.world = s.world ∧
        Resolver.step (theRegistry out d) (s.registry, s.world) s.resolver ⟨env, c⟩ = .ok s'.resolver := by
  refine embed_eq_ok.trans ⟨?_, ?_⟩
  · rintro ⟨_, h, rfl⟩
    exact ⟨rfl, rfl, h⟩
  · rintro ⟨hg, hw, h⟩
    exact ⟨_, h, by rw [← hg, ← hw]⟩

/-- The resolver is configured with the registry of the deployment. -/
def Wired (d : Deployment) (s : State ω) : Prop := s.resolver.registry = some d.registry

theorem wired_deployed (d : Deployment) (admin : Address) (w : ω) : Wired d (deployed d admin w) := rfl

theorem clearReverseRecord_registry {r r' : Resolver.State} {name : Bytes} {previousOwner : Address}
    (h : Resolver.clearReverseRecord env r name previousOwner = .ok r') : r'.registry = r.registry := by
  simp only [Resolver.clearReverseRecord, bind_eq_ok, pure_eq_ok] at h
  obtain ⟨_, _, _, _, rfl⟩ := h
  rfl

/-- **What `clear_reverse_record` keeps of the resolver, a registry transaction keeps.** -/
theorem resolver_of_registry {I : Resolver.State → Prop}
    (hclear : ∀ env r name previousOwner r',
      Resolver.clearReverseRecord env r name previousOwner = .ok r' → I r → I r')
    {c : Registry.Call} (h : step out d s ⟨env, .registry c⟩ = .ok s') (hr : I s.resolver) : I s'.resolver := by
  refine Registry.step_world (I := fun rw : Resolver.State × ω => I rw.1) ?_ ?_ (step_registry_eq_ok.mp h) hr
  · intro nft _ env call rw rw' hcall hrw
    obtain ⟨_, _, rfl⟩ := Option.map_eq_some_iff.mp hcall
    exact hrw
  · intro env resolver name previousOwner rw rw' hcall hrw
    simp only [theResolver] at hcall
    split at hcall
    · obtain ⟨r, hr, rfl⟩ := Option.map_eq_some_iff.mp hcall
      exact hclear env rw.1 name previousOwner r (toOption_eq_some.mp hr) hrw
    · obtain ⟨_, _, rfl⟩ := Option.map_eq_some_iff.mp hcall
      exact hrw

/-- **The wiring survives every transaction.** -/
theorem preserves_wired (out : Outside ω) (d : Deployment) : Preserves (step out d) (Wired d) := by
  rintro s ⟨env, c⟩ s' hwired h
  cases c with
  | resolver c => exact Resolver.step_registry (step_resolver_eq_ok.mp h).2.2 hwired
  | registry c =>
      refine resolver_of_registry (I := fun r => r.registry = some d.registry) ?_ h hwired
      intro env r name previousOwner r' hclear hr
      exact (clearReverseRecord_registry hclear).trans hr

/-- Alice registers her name. -/
def aliceBuys : Tx Call :=
  ⟨⟨1000, [Cast.alice], none⟩, .registry (.register Cast.aliceXlm Cast.alice none none 1000 31537000 34129000)⟩

/-- She links it to her address. -/
def aliceLinks : Tx Call :=
  ⟨⟨2000, [Cast.alice], none⟩, .resolver (.setRecord Cast.aliceXlm Cast.alice Cast.alice.strkey 2000)⟩

/-- She sells it to Bob. -/
def aliceSells : Tx Call :=
  ⟨⟨3000, [Cast.alice], none⟩, .registry (.transfer Cast.aliceXlm Cast.alice Cast.bob 3000)⟩

end XlmNs.RegistryResolver
