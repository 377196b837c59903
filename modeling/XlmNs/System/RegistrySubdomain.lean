import XlmNs.Registry.Steps
import XlmNs.Soroban.Machine
import XlmNs.Subdomain.Steps

/-!
# `System.RegistrySubdomain` — the registry next to the subdomain contract

The two contracts as one machine. The subdomain contract asks whatever registry it is configured with; at the
address of the deployment's registry the answers come from that registry's own storage. Other registries, NFT
contracts and resolvers stay parameters.
-/

namespace XlmNs.RegistrySubdomain

open Soroban

/-- The storage of both contracts, and the state of everything else. -/
structure State (ω : Type) where
  registry  : Registry.State
  subdomain : Subdomain.State
  world     : ω

/-- A transaction invokes one of the two contracts. -/
inductive Call
  | registry (c : Registry.Call)
  | subdomain (c : Subdomain.Call)

/-- How a transaction fails, in the contract it invoked. -/
inductive Failure
  | registry (f : Fault Registry.RegistryError)
  | subdomain (f : Fault Subdomain.SubdomainError)

/-- What both contracts rely on outside the two: other registries answer the subdomain contract as they like. -/
structure Outside (ω : Type) extends Registry.Outside ω where
  others : Subdomain.Outside ω

/-- A world in which no call comes through. -/
def nothingOutside : Outside Unit where
  toOutside := Registry.nothingOutside
  others    := Subdomain.nothingOutside

variable {ω : Type}

/-- The subdomain contract's outside world: the registry at its address is the real one. -/
def theRegistry (out : Outside ω) (registry : Address) : Subdomain.Outside (Registry.State × ω) where
  registryResolve address name nowUnix gw :=
    if address = registry then (Registry.resolve gw.1 name nowUnix).toOption
    else out.others.registryResolve address name nowUnix gw.2
  nameState address name nowUnix gw :=
    if address = registry then some (Registry.nameState gw.1 name nowUnix)
    else out.others.nameState address name nowUnix gw.2

/-- The two contracts just after deployment, neither of them initialised. -/
def deployed (w : ω) : State ω where
  registry  := Registry.State.empty
  subdomain := Subdomain.State.empty
  world     := w

/-- **One transaction**: it invokes one of the two contracts, which may ask the other. -/
def step (out : Outside ω) (registry : Address) (s : State ω) (t : Tx Call) : Except Failure (State ω) :=
  match t.call with
  | .registry c =>
      embed (fun (g, w) => { s with registry := g, world := w }) Failure.registry
        (Registry.step out.toOutside registry (s.registry, s.world) ⟨t.env, c⟩)
  | .subdomain c =>
      embed (fun u => { s with subdomain := u }) Failure.subdomain
        (Subdomain.step (theRegistry out registry) (s.registry, s.world) s.subdomain ⟨t.env, c⟩)

variable {out : Outside ω} {registry : Address} {env : Env} {s s' : State ω}

theorem step_registry_eq_ok {c : Registry.Call} :
    step out registry s ⟨env, .registry c⟩ = .ok s' ↔
      s'.subdomain = s.subdomain ∧
        Registry.step out.toOutside registry (s.registry, s.world) ⟨env, c⟩
          = .ok (s'.registry, s'.world) := by
  refine embed_eq_ok.trans ⟨?_, ?_⟩
  · rintro ⟨_, h, rfl⟩
    exact ⟨rfl, h⟩
  · rintro ⟨hu, h⟩
    exact ⟨_, h, by rw [← hu]⟩

theorem step_subdomain_eq_ok {c : Subdomain.Call} :
    step out registry s ⟨env, .subdomain c⟩ = .ok s' ↔
      s'.registry = s.registry ∧ s'.world = s.world ∧
        Subdomain.step (theRegistry out registry) (s.registry, s.world) s.subdomain ⟨env, c⟩
          = .ok s'.subdomain := by
  refine embed_eq_ok.trans ⟨?_, ?_⟩
  · rintro ⟨_, h, rfl⟩
    exact ⟨rfl, rfl, h⟩
  · rintro ⟨hg, hw, h⟩
    exact ⟨_, h, by rw [← hg, ← hw]⟩

/-- The subdomain contract is configured with the registry of the deployment. -/
def Wired (registry : Address) (s : State ω) : Prop := s.subdomain.registryContract = some registry

instance (registry : Address) (s : State ω) : Decidable (Wired registry s) := inferInstanceAs (Decidable (_ = _))

/-- Wired, a parent is active iff its registry entry is active at the ledger time. -/
theorem entry_of_parentActive {p : Bytes} (hwired : Wired registry s)
    (h : Subdomain.ParentActive (theRegistry out registry) env s.subdomain (s.registry, s.world) p) :
    ∃ e, s.registry.entry p = some e ∧ e.isActiveAt env.timestamp := by
  have hstate := h registry hwired
  simp only [theRegistry, if_true, Registry.nameState] at hstate
  cases he : s.registry.entry p with
  | none => simp [he] at hstate
  | some e =>
      refine ⟨e, rfl, ?_⟩
      by_contra hactive
      simp only [he, if_neg hactive] at hstate
      split at hstate <;> cases hstate

/-- Wired, a registered parent belongs to the owner of its registry entry. -/
theorem entry_of_registryOwns {p : Bytes} {owner : Address} (hwired : Wired registry s)
    (h : Subdomain.RegistryOwns (theRegistry out registry) env s.subdomain (s.registry, s.world) p owner) :
    ∃ e, s.registry.entry p = some e ∧ e.owner = owner := by
  obtain ⟨e, he, howner⟩ := h registry hwired
  simp only [theRegistry, if_true] at he
  obtain ⟨_, hentry, _⟩ := Registry.resolve_eq_ok.mp (toOption_eq_some.mp he)
  exact ⟨e, hentry, howner⟩

end XlmNs.RegistrySubdomain
