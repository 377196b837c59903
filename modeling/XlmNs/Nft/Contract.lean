import XlmNs.Common.Upgrade
import XlmNs.Soroban.Store

/-!
# `Nft.Contract` — the NFT contract (`contracts/nft/src/lib.rs`)

One token per registered name. The admin (the registry, in a full deployment) mints, burns and keeps tokens in
step with the entries; owners approve and transfer them, and with a registry configured a transfer is passed on
to it.

The registry is a parameter (`Outside`) acting on the state `ω` of everything outside the contract; the host
refuses re-entry. `src/mint.rs` and `src/transfer.rs` belong to no module of the crate and are not modelled,
nor is `token_uri`, which no modelled function uses. Events are in `Nft.Events`.
-/

namespace XlmNs.Nft

open Soroban

/-- What the contract keeps of a token. -/
structure TokenRecord where
  owner       : Address
  approved    : Option Address
  metadataUri : Option Bytes
  expiresAt   : UInt64
deriving DecidableEq, Repr

/-- What it caches of the registry's entry. -/
structure NameRecord where
  registrationDate : UInt64
  expiryDate       : UInt64
  targetAddress    : Option Bytes
deriving DecidableEq, Repr

/-- What an entrypoint of the NFT contract may refuse with. -/
inductive NftError
  | alreadyMinted
  | notFound
  | unauthorized
  | upgradeFailed
  | notInitialized
deriving DecidableEq, Repr

/-- The contract's storage, one field per `DataKey`; an absent `TokenIds` reads as empty. -/
structure State where
  token           : Store Bytes TokenRecord
  tokenIds        : List Bytes
  ownerTokens     : Index Address Bytes
  admin           : Option Address
  contractVersion : Option UInt32
  nameData        : Store Bytes NameRecord
  registry        : Option Address

/-- A freshly deployed NFT contract. -/
def State.empty : State where
  token           := fun _ => none
  tokenIds        := []
  ownerTokens     := fun _ => none
  admin           := none
  contractVersion := none
  nameData        := fun _ => none
  registry        := none

/-- What the contract relies on outside its own code; `none` is a failing call. -/
structure Outside (ω : Type) where
  /-- `registry.resolve(token_id, now_unix)` -/
  registryResolve : Address → Bytes → UInt64 → ω → Option RegistryEntry
  /-- the registry's `update_owner`, called with the two arguments `(token_id, new_owner)` -/
  updateOwner     : Env → Address → Bytes → Address → ω → Option ω

/-- A world in which no call comes through. -/
def nothingOutside : Outside Unit where
  registryResolve _ _ _ _ := none
  updateOwner _ _ _ _ _   := none

variable {ω : Type}

/-- How an entrypoint of the NFT contract ends. -/
abbrev Result (α : Type) := Outcome NftError α

/-! ## Helpers -/

/-- The record of a token, or `NotFound`. -/
def getToken (s : State) (tokenId : Bytes) : Result TokenRecord := okOr (s.token tokenId) .notFound

/-- Write the record of a token. -/
def putToken (s : State) (tokenId : Bytes) (record : TokenRecord) : State :=
  { s with token := s.token.set tokenId record }

/-- `get_admin().ok_or(e)?` followed by `admin.require_auth()`. -/
def requireAdmin (env : Env) (s : State) (e : NftError) : Result Unit := do
  let admin ← okOr s.admin e
  requireAuth env admin

/-- List a token under its owner, behind the others. -/
def addOwnerToken (s : State) (owner : Address) (tokenId : Bytes) : State :=
  { s with ownerTokens := s.ownerTokens.push owner tokenId }

/-- Take a token off its owner's list. -/
def removeOwnerToken (s : State) (owner : Address) (tokenId : Bytes) : State :=
  { s with ownerTokens := s.ownerTokens.filterOut owner tokenId }

/-- Move a token from one list to the end of another. -/
def reindexOwnerToken (s : State) (previousOwner newOwner : Address) (tokenId : Bytes) : State :=
  if previousOwner = newOwner then s
  else addOwnerToken (removeOwnerToken s previousOwner tokenId) newOwner tokenId

/-- Read the name's dates from the registry and cache them. -/
def cacheNameData (out : Outside ω) (env : Env) (s : State) (w : ω) (registry : Address)
    (tokenId : Bytes) : Result State := do
  let entry ← invoke (out.registryResolve registry tokenId env.timestamp w)
  return { s with
    nameData := s.nameData.set tokenId ⟨entry.registeredAt, entry.expiresAt, entry.targetAddress⟩ }

/-- `if let Ok(registry) = get_registry(&env) { … update_owner … }` -/
def passOn (out : Outside ω) (self : Address) (env : Env) (s : State) (w : ω) (tokenId : Bytes)
    (newOwner : Address) : Result ω :=
  match s.registry with
  | some registry => invoke (out.updateOwner (env.callFrom self) registry tokenId newOwner w)
  | none          => return w

/-! ## Administration -/

/-- `initialize` -/
def initializeContract (s : State) (admin : Address) : Result State := do
  require (s.admin = none) .alreadyMinted
  return { s with admin := some admin, contractVersion := some XlmNs.contractVersion }

/-- The model follows `upgrade` up to the replacement of the code; every `migrate` step is a no-op. -/
def upgrade (env : Env) (s : State) (migrationData : Bytes) : Result State :=
  upgradeStoring (fun version => { s with contractVersion := some version }) env s.admin .upgradeFailed
    s.contractVersion migrationData

/-- The admin names the registry. -/
def setRegistry (env : Env) (s : State) (admin registry : Address) : Result State := do
  let storedAdmin ← okOr s.admin .notInitialized
  require (storedAdmin = admin) .unauthorized
  requireAuth env admin
  return { s with registry := some registry }

/-! ## Tokens -/

/-- The token `mint` writes. -/
def freshToken (owner : Address) (metadataUri : Option Bytes) (expiresAt : UInt64) : TokenRecord where
  owner       := owner
  approved    := none
  metadataUri := metadataUri
  expiresAt   := expiresAt

/-- The admin mints a token, and the dates of the name are cached. -/
def mint (out : Outside ω) (env : Env) (s : State) (w : ω) (tokenId : Bytes) (owner : Address)
    (metadataUri : Option Bytes) (expiresAt : UInt64) : Result State := do
  requireAdmin env s .unauthorized
  require (s.token tokenId = none) .alreadyMinted
  let s := putToken s tokenId (freshToken owner metadataUri expiresAt)
  let s := { s with tokenIds := s.tokenIds ++ [tokenId] }
  let s := addOwnerToken s owner tokenId
  match s.registry with
  | some registry => cacheNameData out env s w registry tokenId
  | none          => return s

/-- Anybody may have the dates of the name cached again. -/
def refreshNameData (out : Outside ω) (env : Env) (s : State) (w : ω) (tokenId : Bytes) :
    Result State := do
  let registry ← okOr s.registry .notInitialized
  require (s.token tokenId ≠ none) .notFound
  cacheNameData out env s w registry tokenId

/-- The caller's signature is not required, here and in the three entrypoints below. -/
def approve (s : State) (tokenId : Bytes) (caller approved : Address) : Result State := do
  let record ← getToken s tokenId
  require (record.owner = caller) .unauthorized
  return putToken s tokenId { record with approved := some approved }

/-- The owner withdraws an approval. -/
def approveClear (s : State) (tokenId : Bytes) (caller : Address) : Result State := do
  let record ← getToken s tokenId
  require (record.owner = caller) .unauthorized
  return putToken s tokenId { record with approved := none }

/-- The storage after a token moved to `newOwner`. -/
def moveToken (s : State) (tokenId : Bytes) (record : TokenRecord) (newOwner : Address) : State :=
  reindexOwnerToken (putToken s tokenId { record with owner := newOwner, approved := none })
    record.owner newOwner tokenId

/-- The owner, or the approved address, moves a token. -/
def transfer (out : Outside ω) (self : Address) (env : Env) (s : State) (w : ω) (tokenId : Bytes)
    (caller newOwner : Address) : Result (State × ω) := do
  let record ← getToken s tokenId
  require (record.owner = caller ∨ record.approved = some caller) .unauthorized
  let s := moveToken s tokenId record newOwner
  let w ← passOn out self env s w tokenId newOwner
  return (s, w)

/-- The approved address moves a token of the owner it names. -/
def transferFrom (out : Outside ω) (self : Address) (env : Env) (s : State) (w : ω)
    (spender owner recipient : Address) (tokenId : Bytes) : Result (State × ω) := do
  let record ← getToken s tokenId
  require (record.owner = owner ∧ record.approved = some spender) .unauthorized
  let s := moveToken s tokenId record recipient
  let w ← passOn out self env s w tokenId recipient
  return (s, w)

/-- The admin burns a token. -/
def burn (env : Env) (s : State) (tokenId : Bytes) : Result State := do
  requireAdmin env s .unauthorized
  let record ← getToken s tokenId
  -- the cached dates stay behind
  let s := { s with token := s.token.remove tokenId }
  let s := removeOwnerToken s record.owner tokenId
  return { s with tokenIds := s.tokenIds.erase tokenId }

/-- The admin copies the expiry of the name. -/
def syncExpiry (env : Env) (s : State) (tokenId : Bytes) (newExpiry : UInt64) : Result State := do
  requireAdmin env s .unauthorized
  let record ← getToken s tokenId
  return putToken s tokenId { record with expiresAt := newExpiry }

/-- The approval survives a change of owner made here. -/
def syncOwner (env : Env) (s : State) (tokenId : Bytes) (newOwner : Address) : Result State := do
  requireAdmin env s .unauthorized
  let record ← getToken s tokenId
  return reindexOwnerToken (putToken s tokenId { record with owner := newOwner }) record.owner newOwner
    tokenId

/-! ## Metadata -/

/-- What a wallet is shown of a token. -/
structure TokenMetadata where
  tokenId          : Bytes
  owner            : Address
  registrationDate : UInt64
  expiryDate       : UInt64
  isExpired        : Bool
  targetAddress    : Option Bytes
deriving DecidableEq, Repr

/-- The owner is the token's, the dates are those cached. -/
def metadata (s : State) (tokenId : Bytes) (nowUnix : UInt64) : Option TokenMetadata := do
  let token ← s.token tokenId
  let nameRecord ← s.nameData tokenId
  return {
    tokenId          := tokenId
    owner            := token.owner
    registrationDate := nameRecord.registrationDate
    expiryDate       := nameRecord.expiryDate
    isExpired        := decide (nowUnix > nameRecord.expiryDate)
    targetAddress    := nameRecord.targetAddress }

/-! ## Enumeration -/

/-- The owner of a token. -/
def ownerOf (s : State) (tokenId : Bytes) : Option Address := (s.token tokenId).map (·.owner)

/-- How many tokens an owner is listed with. -/
def balanceOf (s : State) (owner : Address) : Nat := (s.ownerTokens.keys owner).length

/-- How many tokens there are. -/
def totalSupply (s : State) : Nat := s.tokenIds.length

/-- A token by its place in the list of all. -/
def tokenByIndex (s : State) (index : Nat) : Option Bytes := s.tokenIds[index]?

/-- A token by its place in the list of its owner. -/
def tokenOfOwnerByIndex (s : State) (owner : Address) (index : Nat) : Option Bytes :=
  (s.ownerTokens.keys owner)[index]?

/-! ## Dispatch -/

/-- The state-changing entrypoints with their arguments. -/
inductive Call
  | initializeContract (admin : Address)
  | upgrade (migrationData : Bytes)
  | setRegistry (admin registry : Address)
  | mint (tokenId : Bytes) (owner : Address) (metadataUri : Option Bytes) (expiresAt : UInt64)
  | refreshNameData (tokenId : Bytes)
  | approve (tokenId : Bytes) (caller approved : Address)
  | approveClear (tokenId : Bytes) (caller : Address)
  | transfer (tokenId : Bytes) (caller newOwner : Address)
  | transferFrom (spender owner recipient : Address) (tokenId : Bytes)
  | burn (tokenId : Bytes)
  | syncExpiry (tokenId : Bytes) (newExpiry : UInt64)
  | syncOwner (tokenId : Bytes) (newOwner : Address)
deriving DecidableEq, Repr

/-- One invocation of the NFT contract: its storage and the outside world after it. -/
def step (out : Outside ω) (self : Address) (sw : State × ω) (t : Tx Call) : Result (State × ω) :=
  let (s, w) := sw
  match t.call with
  | .initializeContract admin => return (← initializeContract s admin, w)
  | .upgrade migrationData => return (← upgrade t.env s migrationData, w)
  | .setRegistry admin registry => return (← setRegistry t.env s admin registry, w)
  | .mint tokenId owner metadataUri expiresAt =>
      return (← mint out t.env s w tokenId owner metadataUri expiresAt, w)
  | .refreshNameData tokenId => return (← refreshNameData out t.env s w tokenId, w)
  | .approve tokenId caller approved => return (← approve s tokenId caller approved, w)
  | .approveClear tokenId caller => return (← approveClear s tokenId caller, w)
  | .transfer tokenId caller newOwner => transfer out self t.env s w tokenId caller newOwner
  | .transferFrom spender owner recipient tokenId =>
      transferFrom out self t.env s w spender owner recipient tokenId
  | .burn tokenId => return (← burn t.env s tokenId, w)
  | .syncExpiry tokenId newExpiry => return (← syncExpiry t.env s tokenId newExpiry, w)
  | .syncOwner tokenId newOwner => return (← syncOwner t.env s tokenId newOwner, w)

end XlmNs.Nft
