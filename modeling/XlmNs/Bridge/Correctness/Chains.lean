import XlmNs.Bridge.Correctness.Messages
import XlmNs.Soroban.Enumeration

/-!
# `Bridge.Correctness.Chains` — routes lead to supported chains

A route is a copy of the resolver of its chain. `register_chain` takes the copy, nothing changes a resolver while its
chain is supported, and a chain that is removed takes its route along: no copy is ever stale
(`routes_backed`), and a message names the resolver on record (`messages_name_current_resolver`).
-/

namespace XlmNs.Bridge

open Soroban

variable {s s' : State}

/-- The list stored, or the empty one. -/
def chainIds (s : State) : List Bytes := s.supportedChainIds.getD []

/-- A route goes to the resolver of its chain. -/
def SameResolver (supported : SupportedChain) (route : BridgeRoute) : Prop :=
  supported.resolverAddress = route.destinationResolver

/-- **Chains are listed, and routes copy them.** A supported chain need not have a route. -/
structure Backed (s : State) : Prop where
  listed : Enumerates (chainIds s) s.supportedChain
  keyed  : ∀ chain supported, s.supportedChain chain = some supported → supported.chainId = chain
  routes : Store.Mirrors SameResolver (fun _ => False) s.supportedChain s.route

/-- There are neither chains nor routes at the start. -/
theorem backed_empty : Backed State.empty := by
  constructor
  · exact Enumerates.empty
  · intro chain supported h
    cases h
  · exact Store.Mirrors.empty SameResolver _

theorem Backed.of_eq (h : Backed s) (hids : s'.supportedChainIds = s.supportedChainIds)
    (hsupported : s'.supportedChain = s.supportedChain) (hroute : s'.route = s.route) : Backed s' := by
  constructor
  · unfold chainIds
    rw [hids, hsupported]
    exact h.listed
  · rw [hsupported]
    exact h.keyed
  · rw [hsupported, hroute]
    exact h.routes

/-- Routes stay backed, whatever is called. -/
theorem preserves_backed : Preserves step Backed := by
  rintro s ⟨env, c⟩ s' h hok
  cases c with
  | initializeContract admin =>
      simp only [step, initializeContract, bind_eq_ok, pure_eq_ok] at hok
      obtain ⟨_, _, rfl⟩ := hok
      exact h.of_eq rfl rfl rfl
  | upgrade migrationData =>
      simp only [step, upgrade, upgradeStoring_eq_ok] at hok
      obtain ⟨_, rfl⟩ := hok
      exact h.of_eq rfl rfl rfl
  | registerChain chain =>
      simp only [step, registerChain, bind_eq_ok, okOr_eq_ok, pure_eq_ok] at hok
      obtain ⟨_, _, _, _, _, _, supported, hsupported, _, _, rfl⟩ := hok
      refine ⟨h.listed, h.keyed, ?_⟩
      exact (h.routes.set_right_iff chain _).mpr ⟨supported, hsupported, rfl⟩
  | addSupportedChain chainId resolverAddress =>
      simp only [step, addSupportedChain, bind_eq_ok, require_eq_ok, pure_eq_ok] at hok
      obtain ⟨_, _, _, _, _, _, _, _, _, hfresh, rfl⟩ := hok
      refine ⟨h.listed.insert _ hfresh, ?_, h.routes.set_left hfresh id⟩
      intro chain supported hchain
      rcases Store.set_eq_some.mp hchain with ⟨rfl, rfl⟩ | ⟨_, hold⟩
      · rfl
      · exact h.keyed chain supported hold
  | removeSupportedChain chainId =>
      simp only [step, removeSupportedChain, bind_eq_ok, pure_eq_ok] at hok
      obtain ⟨_, _, _, _, _, _, _, _, rfl⟩ := hok
      refine ⟨h.listed.filterOut chainId, ?_, h.routes.remove_both chainId⟩
      intro chain supported hchain
      exact h.keyed chain supported (Store.remove_eq_some.mp hchain).2

/-- So they are after every run. -/
theorem run_backed (ts : List (Tx Call)) : Backed (run step State.empty ts) := preserves_backed.run ts backed_empty

/-! ## What it means for the views -/

/-- **`get_supported_chains` returns each chain once**, as it is on record. -/
theorem Backed.getSupportedChains (h : Backed s) :
    ((getSupportedChains s).map SupportedChain.chainId).Nodup ∧
      ∀ supported, supported ∈ getSupportedChains s ↔ supportedChain s supported.chainId = some supported := by
  constructor
  · have hids : (Bridge.getSupportedChains s).map SupportedChain.chainId = chainIds s :=
      h.listed.values_of_keyed h.keyed
    rw [hids]
    exact h.listed.nodup
  · intro supported
    show supported ∈ (chainIds s).filterMap s.supportedChain ↔ s.supportedChain supported.chainId = some supported
    rw [List.mem_filterMap]
    constructor
    · rintro ⟨chain, _, hchain⟩
      rw [h.keyed chain supported hchain]
      exact hchain
    · intro hchain
      exact ⟨supported.chainId, (h.listed.mem_iff _).mpr ⟨supported, hchain⟩, hchain⟩

/-- What is said of the three stores. -/
structure RoutesBacked (s : State) : Prop where
  idsNodup        : (chainIds s).Nodup
  idsListed       : ∀ chain, chain ∈ chainIds s ↔ ∃ supported, s.supportedChain chain = some supported
  returnedOnce    : ((getSupportedChains s).map SupportedChain.chainId).Nodup
  returned        : ∀ supported, supported ∈ getSupportedChains s ↔
                      supportedChain s supported.chainId = some supported
  routesSupported : ∀ chain route, s.route chain = some route →
                      ∃ supported, supportedChain s chain = some supported ∧
                        supported.resolverAddress = route.destinationResolver

/-- **Routes are backed by supported chains**, in every state the bridge can reach. -/
theorem routes_backed (ts : List (Tx Call)) : RoutesBacked (run step State.empty ts) := by
  have hbacked := run_backed ts
  exact {
    idsNodup := hbacked.listed.nodup
    idsListed := hbacked.listed.mem_iff
    returnedOnce := hbacked.getSupportedChains.1
    returned := hbacked.getSupportedChains.2
    routesSupported := hbacked.routes.back }

/-- **A message names the resolver on record** for the chain it was asked for. -/
theorem messages_name_current_resolver (ts : List (Tx Call)) {i : Input} {m : Bytes}
    (h : message (run step State.empty ts) i = .ok m) :
    ∃ supported, supportedChain (run step State.empty ts) i.chain = some supported ∧
      built ⟨i.chain, supported.resolverAddress, []⟩ i = .ok m := by
  obtain ⟨route, haccepted⟩ := accepted_iff.mpr fun e herror => nomatch h.symm.trans herror
  obtain ⟨supported, hsupported, hresolver⟩ := (run_backed ts).routes.back _ _ haccepted.route
  have hchain := (preserves_routed.run ts routed_empty _ _ haccepted.route).1
  refine ⟨supported, hsupported, ?_⟩
  rw [message_accepted haccepted] at h
  rw [← h, hresolver, ← hchain]
  cases i <;> rfl

end XlmNs.Bridge
