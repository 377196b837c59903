import XlmNs.Nft.Steps
import XlmNs.Registry.NftCalls
import XlmNs.Soroban.Machine

/-!
# `System.RegistryNft` — the registry wired to the NFT contract

The two contracts as one machine, calling each other in both directions: the registry mints, burns and syncs tokens,
the NFT contract asks the registry for a name's dates and passes transfers on to `update_owner`. The host refuses a
call into a contract that is already running, so what the NFT contract sends back to the registry while the registry
calls it fails (`duringRegistry`). Cross-calls are by name and argument list, and the callee decodes the list.

Other NFT contracts, other registries and the resolvers stay parameters. They act on the world outside the two
contracts; one that turns around and calls the NFT contract in the middle of a registry call is not modelled.
-/

namespace XlmNs.RegistryNft

open Soroban

/-- The addresses the two contracts are deployed at. -/
structure Deployment where
  registry : Address
  nft      : Address

/-- The deployment of the concrete runs. -/
def contracts : Deployment := ⟨Cast.registry, Cast.nft⟩

/-- The storage of both contracts, and the state of everything else. -/
structure State (ω : Type) where
  registry : Registry.State
  nft      : Nft.State
  world    : ω

/-- A transaction invokes one of the two contracts. -/
inductive Call
  | registry (c : Registry.Call)
  | nft (c : Nft.Call)

/-- How a transaction fails, in the contract it invoked. -/
inductive Failure
  | registry (f : Fault Registry.RegistryError)
  | nft (f : Fault Nft.NftError)

/-- What both contracts rely on outside the two. -/
structure Outside (ω : Type) where
  registry : Registry.Outside ω
  nft      : Nft.Outside ω

/-- A world in which no call comes through. -/
def nothingOutside : Outside Unit := ⟨Registry.nothingOutside, Nft.nothingOutside⟩

variable {ω : Type}

/-! ## The registry calls the NFT contract -/

/-- The entrypoint a call through `NftClient` reaches. -/
def entrypoint : Registry.NftCall → Nft.Call
  | .mint name owner metadataUri expiresAt => .mint name owner metadataUri expiresAt
  | .syncOwner name newOwner               => .syncOwner name newOwner
  | .syncExpiry name newExpiry             => .syncExpiry name newExpiry
  | .burn name                             => .burn name

/-- The NFT contract's outside world while the registry is calling it: the registry cannot be entered again. -/
def duringRegistry (out : Outside ω) (d : Deployment) : Nft.Outside ω where
  registryResolve address name nowUnix w :=
    if address = d.registry then none else out.nft.registryResolve address name nowUnix w
  updateOwner env address tokenId newOwner w :=
    if address = d.registry then none else out.nft.updateOwner env address tokenId newOwner w

/-- The registry's outside world: the NFT contract at its address is the real one, and is no resolver. -/
def theNft (out : Outside ω) (d : Deployment) : Registry.Outside (Nft.State × ω) where
  addressFromString := out.registry.addressFromString
  nft env address call nw :=
    if address = d.nft then (Nft.step (duringRegistry out d) d.nft nw ⟨env, entrypoint call⟩).toOption
    else (out.registry.nft env address call nw.2).map (fun w => (nw.1, w))
  clearReverseRecord env resolver name previousOwner nw :=
    if resolver = d.nft then none
    else (out.registry.clearReverseRecord env resolver name previousOwner nw.2).map (fun w => (nw.1, w))

/-! ## The NFT contract calls the registry -/

/-- A value in the argument list of a cross-contract call. -/
inductive Val
  | string (value : Bytes)
  | address (value : Address)

/-- `update_owner` as the host invokes it: a list that is not `(name, caller, new_owner)` traps. -/
def invokeUpdateOwner (env : Env) (g : Registry.State) : List Val → Option Registry.State
  | [.string name, .address caller, .address newOwner] =>
      (Registry.updateOwner env g name caller newOwner).toOption
  | _ => none

/-- The NFT contract's outside world: the registry at its address is the real one. -/
def theRegistry (out : Outside ω) (d : Deployment) : Nft.Outside (Registry.State × ω) where
  registryResolve address name nowUnix gw :=
    if address = d.registry then (Registry.resolve gw.1 name nowUnix).toOption
    else out.nft.registryResolve address name nowUnix gw.2
  updateOwner env address tokenId newOwner gw :=
    if address = d.registry then
      -- `(token_id.clone(), new_owner).into_val(&env)`
      (invokeUpdateOwner env gw.1 [.string tokenId, .address newOwner]).map (fun g => (g, gw.2))
    else (out.nft.updateOwner env address tokenId newOwner gw.2).map (fun w => (gw.1, w))

/-! ## The machine -/

/-- **One transaction**: it invokes one of the two contracts, which may call the other. -/
def step (out : Outside ω) (d : Deployment) (s : State ω) (t : Tx Call) : Except Failure (State ω) :=
  match t.call with
  | .registry c =>
      embed (fun (g, n, w) => ⟨g, n, w⟩) Failure.registry
        (Registry.step (theNft out d) d.registry (s.registry, s.nft, s.world) ⟨t.env, c⟩)
  | .nft c =>
      embed (fun (n, g, w) => ⟨g, n, w⟩) Failure.nft
        (Nft.step (theRegistry out d) d.nft (s.nft, s.registry, s.world) ⟨t.env, c⟩)

/-- Both contracts deployed and nothing registered: the registry initialised by `admin`, with or without an NFT
    contract; the NFT contract initialised for the registry, with or without a registry link of its own. -/
def deployed (d : Deployment) (admin : Address) (nftContract link : Option Address) (w : ω) : State ω where
  registry := { Registry.State.empty with
    admin := some admin, disputeAdmin := some admin, nftContract := nftContract,
    contractVersion := some XlmNs.contractVersion }
  nft := { Nft.State.empty with
    admin := some d.registry, registry := link, contractVersion := some XlmNs.contractVersion }
  world := w

/-- Both contracts just after deployment, neither of them initialised. -/
def uninitialised (w : ω) : State ω where
  registry := Registry.State.empty
  nft      := Nft.State.empty
  world    := w

variable {out : Outside ω} {d : Deployment} {env : Env} {s s' : State ω}

theorem step_registry_eq_ok {c : Registry.Call} :
    step out d s ⟨env, .registry c⟩ = .ok s' ↔
      Registry.step (theNft out d) d.registry (s.registry, s.nft, s.world) ⟨env, c⟩
        = .ok (s'.registry, s'.nft, s'.world) := by
  refine embed_eq_ok.trans ⟨?_, fun h => ⟨_, h, rfl⟩⟩
  rintro ⟨_, h, rfl⟩
  exact h

theorem step_nft_eq_ok {c : Nft.Call} :
    step out d s ⟨env, .nft c⟩ = .ok s' ↔
      Nft.step (theRegistry out d) d.nft (s.nft, s.registry, s.world) ⟨env, c⟩
        = .ok (s'.nft, s'.registry, s'.world) := by
  refine embed_eq_ok.trans ⟨?_, fun h => ⟨_, h, rfl⟩⟩
  rintro ⟨_, h, rfl⟩
  exact h

/-- The arguments the NFT contract sends are never those `update_owner` takes. -/
theorem invokeUpdateOwner_passedOn (g : Registry.State) (tokenId : Bytes) (newOwner : Address) :
    invokeUpdateOwner env g [.string tokenId, .address newOwner] = none := rfl

/-! ## What one contract's transactions leave of the other -/

/-- The NFT contract never changes the registry: its `update_owner` call traps. -/
theorem registry_of_nft {c : Nft.Call} (h : step out d s ⟨env, .nft c⟩ = .ok s') :
    s'.registry = s.registry := by
  refine Nft.step_world (I := fun gw : Registry.State × ω => gw.1 = s.registry) ?_
    (step_nft_eq_ok.mp h) rfl
  intro env address tokenId newOwner gw gw' hupdate hgw
  simp only [theRegistry] at hupdate
  split at hupdate
  · -- the one call that would write the registry traps
    rw [invokeUpdateOwner_passedOn] at hupdate
    cases hupdate
  · obtain ⟨_, _, rfl⟩ := Option.map_eq_some_iff.mp hupdate
    exact hgw

theorem clearReverseRecord_nft {resolver previousOwner : Address} {name : Bytes} {nw nw' : Nft.State × ω}
    (h : (theNft out d).clearReverseRecord env resolver name previousOwner nw = some nw') : nw'.1 = nw.1 := by
  simp only [theNft] at h
  split at h
  · cases h
  · obtain ⟨_, _, rfl⟩ := Option.map_eq_some_iff.mp h
    rfl

/-- **What the nested calls keep of the NFT contract, a registry transaction keeps**; they come only if the registry
    is linked to it. -/
theorem nft_of_registry {I : Nft.State → Prop} {g g' : Registry.State} {n n' : Nft.State} {w w' : ω}
    {c : Registry.Call}
    (hcalls : g.nftContract = some d.nft → ∀ env call nw nw',
      Nft.step (duringRegistry out d) d.nft nw ⟨env, entrypoint call⟩ = .ok nw' → I nw.1 → I nw'.1)
    (h : Registry.step (theNft out d) d.registry (g, n, w) ⟨env, c⟩ = .ok (g', n', w')) (hn : I n) : I n' := by
  refine Registry.step_world (I := fun nw : Nft.State × ω => I nw.1) ?_ ?_ h hn
  · intro address haddress env call nw nw' hcall hnw
    simp only [theNft] at hcall
    split at hcall
    · -- the address the registry calls is the one it is configured with
      rename_i hself
      rw [hself] at haddress
      exact hcalls haddress env call nw nw' (toOption_eq_some.mp hcall) hnw
    · obtain ⟨_, _, rfl⟩ := Option.map_eq_some_iff.mp hcall
      exact hnw
  · intro env resolver name previousOwner nw nw' hclear hnw
    rw [clearReverseRecord_nft hclear]
    exact hnw

/-- Not linked to the NFT contract, the registry leaves it alone. -/
theorem nft_of_unlinked {g g' : Registry.State} {n n' : Nft.State} {w w' : ω} {c : Registry.Call}
    (hlink : g.nftContract ≠ some d.nft)
    (h : Registry.step (theNft out d) d.registry (g, n, w) ⟨env, c⟩ = .ok (g', n', w')) : n' = n := by
  refine nft_of_registry (I := fun u => u = n) ?_ h rfl
  intro hlinked
  exact absurd hlinked hlink

/-- A call through `NftClient` to the deployed contract is one of its steps. -/
theorem theNft_eq_some {call : Registry.NftCall} {nw nw' : Nft.State × ω} :
    (theNft out d).nft env d.nft call nw = some nw' ↔
      Nft.step (duringRegistry out d) d.nft nw ⟨env, entrypoint call⟩ = .ok nw' := by
  simp only [theNft, if_true]
  exact toOption_eq_some

/-- Alice registers her name. -/
def aliceBuys : Tx Call :=
  ⟨⟨1000, [Cast.alice], none⟩, .registry (.register Cast.aliceXlm Cast.alice none none 1000 31537000 34129000)⟩

/-- She sells the token in the NFT contract. -/
def aliceSells : Tx Call :=
  ⟨⟨2000, [Cast.alice], none⟩, .nft (.transfer Cast.aliceXlm Cast.alice Cast.bob)⟩

end XlmNs.RegistryNft
