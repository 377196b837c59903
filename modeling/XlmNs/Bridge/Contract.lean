import XlmNs.Common.Names
import XlmNs.Common.Upgrade
import XlmNs.Soroban.Store

/-!
# `Bridge.Contract` — the bridge contract (`contracts/bridge/src/lib.rs`, `axelar.rs`)

The admin adds supported chains with their resolvers and registers routes to them; anybody asks for the JSON message
that resolves a name, or an address, over a route. The message is put together from its parts between quotes, nothing
being escaped. Each part goes through a 256-byte buffer, and a part that is not UTF-8 is left out.
-/

namespace XlmNs.Bridge

open Soroban

/-- Where the messages for a chain go. -/
structure BridgeRoute where
  destinationChain    : Bytes
  destinationResolver : Bytes
  gateway             : Bytes
deriving DecidableEq, Repr

/-- A chain and the resolver on it. -/
structure SupportedChain where
  chainId         : Bytes
  resolverAddress : Bytes
deriving DecidableEq, Repr

/-- What an entrypoint of the bridge may refuse with. -/
inductive BridgeError
  | validation
  | unsupportedChain
  | upgradeFailed
  | unauthorized
  | notFound
  | alreadyExists
deriving DecidableEq, Repr

/-- The contract's storage, one field per `DataKey`. -/
structure State where
  route             : Store Bytes BridgeRoute
  supportedChain    : Store Bytes SupportedChain
  supportedChainIds : Option (List Bytes)
  admin             : Option Address
  contractVersion   : Option UInt32

/-- A freshly deployed contract. -/
def State.empty : State where
  route             := fun _ => none
  supportedChain    := fun _ => none
  supportedChainIds := none
  admin             := none
  contractVersion   := none

/-- How an entrypoint of the bridge ends. -/
abbrev Result (α : Type) := Outcome BridgeError α

/-! ## Administration -/

/-- `initialize` -/
def initializeContract (s : State) (admin : Address) : Result State := do
  require (s.admin = none) .validation
  return { s with admin := some admin, contractVersion := some XlmNs.contractVersion }

/-- The model follows `upgrade` up to the replacement of the code; every `migrate` step is a no-op. -/
def upgrade (env : Env) (s : State) (migrationData : Bytes) : Result State :=
  upgradeStoring (fun version => { s with contractVersion := some version }) env s.admin .upgradeFailed
    s.contractVersion migrationData

/-- The admin opens a route to a supported chain, to the resolver it has now. -/
def registerChain (env : Env) (s : State) (chain : Bytes) : Result State := do
  let admin ← okOr s.admin .validation
  requireAuth env admin
  mapErr (validateChainNameSoroban chain) .validation
  let supported ← okOr (s.supportedChain chain) .unsupportedChain
  require (supported.resolverAddress ≠ []) .validation
  return { s with route := s.route.set chain ⟨chain, supported.resolverAddress, []⟩ }

/-- The admin supports a chain. -/
def addSupportedChain (env : Env) (s : State) (chainId resolverAddress : Bytes) : Result State := do
  let admin ← okOr s.admin .validation
  requireAuth env admin
  mapErr (validateChainNameSoroban chainId) .validation
  require (resolverAddress ≠ []) .validation
  require (s.supportedChain chainId = none) .alreadyExists
  return { s with
    supportedChain := s.supportedChain.set chainId ⟨chainId, resolverAddress⟩
    supportedChainIds := some (s.supportedChainIds.getD [] ++ [chainId]) }

/-- A chain's route goes with it. -/
def removeSupportedChain (env : Env) (s : State) (chainId : Bytes) : Result State := do
  let admin ← okOr s.admin .validation
  requireAuth env admin
  mapErr (validateChainNameSoroban chainId) .validation
  require (s.supportedChain chainId ≠ none) .notFound
  return { s with
    supportedChain := s.supportedChain.remove chainId
    supportedChainIds := some ((s.supportedChainIds.getD []).filter (fun id => id ≠ chainId))
    route := s.route.remove chainId }

/-! ## Views -/

/-- The supported chains, in the order they were added. -/
def getSupportedChains (s : State) : List SupportedChain := (s.supportedChainIds.getD []).filterMap s.supportedChain

/-- A supported chain by its name. -/
def supportedChain (s : State) (chainId : Bytes) : Option SupportedChain := s.supportedChain chainId

/-! ## Messages -/

/-- `soroban_str_to_bytes` and the slice of its buffer: a part longer than the buffer panics. -/
def sorobanStrToBytes (part : Bytes) : Result Bytes := if part.length ≤ 256 then .ok part else .error .trap

/-- `core::str::from_utf8`, or nothing. -/
def pushUtf8 (buf bytes : Bytes) : Bytes := if bytes.toByteArray.IsValidUTF8 then buf ++ bytes else buf

/-- `axelar::build_forward_gmp_message` -/
def forwardGmpMessage (name destinationChain resolver : Bytes) : Bytes :=
  let buf := ascii "\x7b\"type\":\"xlm-ns-resolution\",\"name\":\""
  let buf := pushUtf8 buf name ++ ascii "\",\"destination_chain\":\""
  let buf := pushUtf8 buf destinationChain ++ ascii "\",\"resolver\":\""
  pushUtf8 buf resolver ++ ascii "\"\x7d"

/-- `axelar::build_reverse_gmp_message` -/
def reverseGmpMessage (address primaryName destinationChain resolver : Bytes) : Bytes :=
  let buf := ascii "\x7b\"type\":\"xlm-ns-reverse-resolution\",\"address\":\""
  let buf := pushUtf8 buf address ++ ascii "\",\"primary_name\":\""
  let buf := pushUtf8 buf primaryName ++ ascii "\",\"destination_chain\":\""
  let buf := pushUtf8 buf destinationChain ++ ascii "\",\"resolver\":\""
  pushUtf8 buf resolver ++ ascii "\"\x7d"

/-- The message that carries a name. -/
def buildForwardGmpMessage (name destinationChain resolver : Bytes) : Result Bytes :=
  return forwardGmpMessage (← sorobanStrToBytes name) (← sorobanStrToBytes destinationChain)
    (← sorobanStrToBytes resolver)

/-- The message that carries an address and its primary name. -/
def buildReverseGmpMessage (address primaryName destinationChain resolver : Bytes) : Result Bytes :=
  return reverseGmpMessage (← sorobanStrToBytes address) (← sorobanStrToBytes primaryName)
    (← sorobanStrToBytes destinationChain) (← sorobanStrToBytes resolver)

/-- The message for a name, over the route of a chain. -/
def buildMessage (s : State) (name chain : Bytes) : Result Bytes := do
  mapErr (validateFqdnSoroban name) .validation
  mapErr (validateChainNameSoroban chain) .validation
  let route ← okOr (s.route chain) .unsupportedChain
  buildForwardGmpMessage name route.destinationChain route.destinationResolver

/-- The message for an address, over the route of a chain. -/
def buildReverseMessage (s : State) (address primaryName chain : Bytes) : Result Bytes := do
  require (address ≠ [] ∧ primaryName ≠ []) .validation
  mapErr (validateFqdnSoroban primaryName) .validation
  mapErr (validateChainNameSoroban chain) .validation
  let route ← okOr (s.route chain) .unsupportedChain
  buildReverseGmpMessage address primaryName route.destinationChain route.destinationResolver

/-! ## Dispatch -/

/-- The entrypoints that write, with their arguments. -/
inductive Call
  | initializeContract (admin : Address)
  | upgrade (migrationData : Bytes)
  | registerChain (chain : Bytes)
  | addSupportedChain (chainId resolverAddress : Bytes)
  | removeSupportedChain (chainId : Bytes)
deriving DecidableEq, Repr

/-- One invocation of the contract: its storage afterwards. -/
def step (s : State) (t : Tx Call) : Result State :=
  match t.call with
  | .initializeContract admin => initializeContract s admin
  | .upgrade migrationData => upgrade t.env s migrationData
  | .registerChain chain => registerChain t.env s chain
  | .addSupportedChain chainId resolverAddress => addSupportedChain t.env s chainId resolverAddress
  | .removeSupportedChain chainId => removeSupportedChain t.env s chainId

end XlmNs.Bridge
