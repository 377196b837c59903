import XlmNs.Common.Names
import XlmNs.Common.Upgrade
import XlmNs.Soroban.Store

/-!
# `Registry.Contract` — the registry contract (`contracts/registry/src/lib.rs`)

The registry owns the canonical entry of every name. Each entrypoint is a function of the invocation's
environment, the registry's storage and its arguments; it returns the new storage, or fails.

The registry calls two other contracts: the configured NFT contract and the resolver named in an entry. Both
are addresses the registry cannot vouch for, so what they do is a parameter (`Outside`) acting on the state
`ω` of everything outside the registry. The host refuses re-entry, so such a call cannot touch the registry's
own storage. Events are in `Registry.Events`; storage TTLs are not modelled: no entrypoint reads them back.
-/

namespace XlmNs.Registry

open Soroban

/-- What an entrypoint of the registry may refuse with. -/
inductive RegistryError
  | alreadyRegistered
  | notFound
  | notYetClaimable
  | notActive
  | unauthorized
  | metadataTooLong
  | validation
  | invalidExpiry
  | invalidGracePeriod
  | upgradeFailed
  | locked
deriving DecidableEq, Repr

/-- A dispute lock on a name. -/
structure NameLock where
  lockedUntil : UInt64
  lockReason  : Bytes
deriving DecidableEq, Repr

/-- The registry's storage, one field per `DataKey`. -/
structure State where
  entry           : Store Bytes RegistryEntry
  lock            : Store Bytes NameLock
  ownerNames      : Index Address Bytes
  admin           : Option Address
  disputeAdmin    : Option Address
  nftContract     : Option Address
  contractVersion : Option UInt32

/-- A freshly deployed registry. -/
def State.empty : State where
  entry           := fun _ => none
  lock            := fun _ => none
  ownerNames      := fun _ => none
  admin           := none
  disputeAdmin    := none
  nftContract     := none
  contractVersion := none

/-- The calls of the `NftClient` interface. -/
inductive NftCall
  | mint (name : Bytes) (owner : Address) (metadataUri : Option Bytes) (expiresAt : UInt64)
  | syncOwner (name : Bytes) (newOwner : Address)
  | syncExpiry (name : Bytes) (newExpiry : UInt64)
  | burn (name : Bytes)
deriving DecidableEq, Repr

/-- What the registry relies on outside its own code; `none` is a failing call. -/
structure Outside (ω : Type) where
  /-- `Address::from_string`, which traps on a malformed strkey -/
  addressFromString  : Bytes → Option Address
  /-- a call to the contract at an address through `NftClient` -/
  nft                : Env → Address → NftCall → ω → Option ω
  /-- `ResolverClient::clear_reverse_record(name, previous_owner)` -/
  clearReverseRecord : Env → Address → Bytes → Address → ω → Option ω

/-- A world in which no call comes through. -/
def nothingOutside : Outside Unit where
  addressFromString _          := none
  nft _ _ _ _                  := none
  clearReverseRecord _ _ _ _ _ := none

variable {ω : Type}

/-- How an entrypoint of the registry ends. -/
abbrev Result (α : Type) := Outcome RegistryError α

/-- `MAX_METADATA_URI_LENGTH`, in bytes. -/
def maxMetadataUriLength : Nat := 256

/-! ## Helpers -/

/-- The entry of a name, or `NotFound`. -/
def getEntry (s : State) (name : Bytes) : Result RegistryEntry := okOr (s.entry name) .notFound

/-- Write the entry of a name. -/
def putEntry (s : State) (name : Bytes) (entry : RegistryEntry) : State :=
  { s with entry := s.entry.set name entry }

/-- Delete the entry of a name. -/
def removeEntry (s : State) (name : Bytes) : State := { s with entry := s.entry.remove name }

/-- List a name under its owner, behind the others. -/
def addOwnerName (s : State) (owner : Address) (name : Bytes) : State :=
  { s with ownerNames := s.ownerNames.push owner name }

/-- Take a name off its owner's list. -/
def removeOwnerName (s : State) (owner : Address) (name : Bytes) : State :=
  { s with ownerNames := s.ownerNames.filterOut owner name }

/-- Delete the lock of a name. -/
def removeLock (s : State) (name : Bytes) : State := { s with lock := s.lock.remove name }

/-- A metadata URI may be absent, and not too long. -/
def validateMetadata (metadataUri : Option Bytes) : Result Unit :=
  require (∀ value ∈ metadataUri, value.length ≤ maxMetadataUriLength) .metadataTooLong

/-- The entry is active now, and its grace period does not end before it expires. -/
def validateLifecycleTimestamps (nowUnix expiresAt gracePeriodEndsAt : UInt64) : Result Unit := do
  require (isActiveAt expiresAt nowUnix) .invalidExpiry
  require (expiresAt ≤ gracePeriodEndsAt) .invalidGracePeriod

/-- The caller owns the active entry. -/
def ensureOwner (entry : RegistryEntry) (caller : Address) (nowUnix : UInt64) : Result Unit := do
  require (entry.isActiveAt nowUnix) .notActive
  require (entry.owner = caller) .unauthorized

/-- A lock that has run out is deleted on the way. -/
def ensureNameUnlocked (s : State) (name : Bytes) (nowUnix : UInt64) : Result State :=
  match s.lock name with
  | some lock => do
      require (lock.lockedUntil < nowUnix) .locked
      return removeLock s name
  | none => return s

/-- `if let Some(nft_client) = get_nft_client(&env) { … }` -/
def callNft (out : Outside ω) (self : Address) (env : Env) (s : State) (call : NftCall) (w : ω) :
    Result ω :=
  match s.nftContract with
  | some nft => invoke (out.nft (env.callFrom self) nft call w)
  | none     => return w

/-! ## Administration -/

/-- `initialize` -/
def initializeContract (s : State) (admin : Address) : Result State := do
  require (s.admin = none) .unauthorized
  return { s with
    admin := some admin, disputeAdmin := some admin, contractVersion := some XlmNs.contractVersion }

/-- The admin names the NFT contract that mirrors the names. -/
def setNftContract (env : Env) (s : State) (nftContract : Address) : Result State := do
  let admin ← okOr s.admin .unauthorized
  requireAuth env admin
  return { s with nftContract := some nftContract }

/-- The admin names who may lock names. -/
def setDisputeAdmin (env : Env) (s : State) (disputeAdmin : Address) : Result State := do
  let admin ← okOr s.admin .unauthorized
  requireAuth env admin
  return { s with disputeAdmin := some disputeAdmin }

/-- The model follows `upgrade` up to the replacement of the code; every `migrate` step is a no-op. -/
def upgrade (env : Env) (s : State) (migrationData : Bytes) : Result State :=
  upgradeStoring (fun version => { s with contractVersion := some version }) env s.admin .upgradeFailed
    s.contractVersion migrationData

/-! ## Registration and lifecycle -/

/-- The `if let Some(existing)` block of `register`: an existing entry must be past its grace period, and
    is released (entry, owner index, NFT) before the name is registered again. -/
def release (out : Outside ω) (self : Address) (env : Env) (s : State) (w : ω) (name : Bytes)
    (nowUnix : UInt64) : Result (State × ω) :=
  match s.entry name with
  | some existing => do
      require (¬ existing.isActiveAt nowUnix) .alreadyRegistered
      require (existing.isClaimableAt nowUnix) .notYetClaimable
      let s := removeEntry (removeOwnerName s existing.owner name) name
      let w ← callNft out self env s (.burn name) w
      return (s, w)
  | none => return (s, w)

/-- The entry `register` writes. -/
def freshEntry (name : Bytes) (owner : Address) (targetAddress metadataUri : Option Bytes)
    (nowUnix expiresAt gracePeriodEndsAt : UInt64) : RegistryEntry where
  name              := name
  owner             := owner
  resolver          := none
  targetAddress     := targetAddress
  metadataUri       := metadataUri
  ttlSeconds        := defaultTtlSeconds
  registeredAt      := nowUnix
  expiresAt         := expiresAt
  gracePeriodEndsAt := gracePeriodEndsAt
  transferCount     := 0

/-- A free or claimable name becomes the owner's. -/
def register (out : Outside ω) (self : Address) (env : Env) (s : State) (w : ω) (name : Bytes)
    (owner : Address) (targetAddress metadataUri : Option Bytes)
    (nowUnix expiresAt gracePeriodEndsAt : UInt64) : Result (State × ω) := do
  requireAuth env owner
  mapErr (validateFqdnSoroban name) .validation
  let s ← ensureNameUnlocked s name nowUnix
  validateMetadata metadataUri
  -- the bounds are the caller's: nothing ties them to a price or to the ledger clock
  validateLifecycleTimestamps nowUnix expiresAt gracePeriodEndsAt
  let (s, w) ← release out self env s w name nowUnix
  let entry := freshEntry name owner targetAddress metadataUri nowUnix expiresAt gracePeriodEndsAt
  let s := addOwnerName (putEntry s name entry) owner name
  let w ← callNft out self env s (.mint name owner metadataUri expiresAt) w
  return (s, w)

/-- The part `transfer` and `update_owner` share: rewrite the owner and move the name in the index. -/
def moveName (s : State) (name : Bytes) (entry : RegistryEntry) (newOwner : Address) : State :=
  let moved := { entry with
    owner := newOwner, transferCount := saturatingAdd32 entry.transferCount 1 }
  addOwnerName (removeOwnerName (putEntry s name moved) entry.owner name) newOwner name

/-- `if let Some(resolver_id) = entry.resolver.clone() { … }` -/
def callResolver (out : Outside ω) (self : Address) (env : Env) (entry : RegistryEntry) (name : Bytes)
    (w : ω) : Result ω :=
  match entry.resolver with
  | some resolverId => do
      let resolver ← invoke (out.addressFromString resolverId)
      invoke (out.clearReverseRecord (env.callFrom self) resolver name entry.owner w)
  | none => return w

/-- The owner hands an active name on. -/
def transfer (out : Outside ω) (self : Address) (env : Env) (s : State) (w : ω) (name : Bytes)
    (caller newOwner : Address) (nowUnix : UInt64) : Result (State × ω) := do
  requireAuth env caller
  let s ← ensureNameUnlocked s name nowUnix
  let entry ← getEntry s name
  ensureOwner entry caller nowUnix
  let s := moveName s name entry newOwner
  -- the previous owner's reverse record goes, and the token follows
  let w ← callResolver out self env entry name w
  let w ← callNft out self env s (.syncOwner name newOwner) w
  return (s, w)

/-- The owner chooses a resolver, whose address has to be one. -/
def setResolver (out : Outside ω) (env : Env) (s : State) (name : Bytes) (caller : Address)
    (resolver : Option Bytes) (nowUnix : UInt64) : Result State := do
  requireAuth env caller
  let s ← ensureNameUnlocked s name nowUnix
  let entry ← getEntry s name
  ensureOwner entry caller nowUnix
  match resolver with
  | some resolverId => do
      let _ ← invoke (out.addressFromString resolverId)
      return putEntry s name { entry with resolver := resolver }
  | none => return putEntry s name { entry with resolver := resolver }

/-- The owner sets the target address. -/
def setTargetAddress (env : Env) (s : State) (name : Bytes) (caller : Address)
    (targetAddress : Option Bytes) (nowUnix : UInt64) : Result State := do
  requireAuth env caller
  let s ← ensureNameUnlocked s name nowUnix
  let entry ← getEntry s name
  ensureOwner entry caller nowUnix
  return putEntry s name { entry with targetAddress := targetAddress }

/-- The owner sets the metadata URI. -/
def setMetadata (env : Env) (s : State) (name : Bytes) (caller : Address)
    (metadataUri : Option Bytes) (nowUnix : UInt64) : Result State := do
  requireAuth env caller
  let s ← ensureNameUnlocked s name nowUnix
  validateMetadata metadataUri
  let entry ← getEntry s name
  ensureOwner entry caller nowUnix
  return putEntry s name { entry with metadataUri := metadataUri }

/-- The only entrypoint that reads the ledger clock instead of an argument. -/
def updateOwner (env : Env) (s : State) (name : Bytes) (caller newOwner : Address) : Result State := do
  let nftContract ← okOr s.nftContract .unauthorized
  requireAuth env caller
  require (caller = nftContract) .unauthorized
  let entry ← getEntry s name
  let s ← ensureNameUnlocked s name env.timestamp
  require (entry.isActiveAt env.timestamp) .notActive
  return moveName s name entry newOwner

/-- The owner puts the two ends of the name off. -/
def renew (out : Outside ω) (self : Address) (env : Env) (s : State) (w : ω) (name : Bytes)
    (caller : Address) (expiresAt gracePeriodEndsAt nowUnix : UInt64) : Result (State × ω) := do
  requireAuth env caller
  let s ← ensureNameUnlocked s name nowUnix
  let entry ← getEntry s name
  -- possible until the grace period is over, and never a shortening
  require (¬ entry.isClaimableAt nowUnix) .notActive
  require (entry.owner = caller) .unauthorized
  require (entry.expiresAt ≤ expiresAt) .invalidExpiry
  require (entry.gracePeriodEndsAt ≤ gracePeriodEndsAt) .invalidGracePeriod
  validateLifecycleTimestamps nowUnix expiresAt gracePeriodEndsAt
  let s := putEntry s name
    { entry with expiresAt := expiresAt, gracePeriodEndsAt := gracePeriodEndsAt }
  let w ← callNft out self env s (.syncExpiry name expiresAt) w
  return (s, w)

/-- A name leaves the registry. -/
def burn (out : Outside ω) (self : Address) (env : Env) (s : State) (w : ω) (name : Bytes)
    (caller : Address) (nowUnix : UInt64) : Result (State × ω) := do
  requireAuth env caller
  let s ← ensureNameUnlocked s name nowUnix
  let entry ← getEntry s name
  -- anybody may burn a name that `now_unix` puts past its grace period
  require (entry.owner = caller ∨ entry.isClaimableAt nowUnix) .unauthorized
  let s := removeEntry (removeOwnerName s entry.owner name) name
  let w ← callNft out self env s (.burn name) w
  return (s, w)

/-! ## Dispute locks -/

/-- The dispute admin locks a name. -/
def lockName (env : Env) (s : State) (name : Bytes) (caller : Address) (lockedUntil : UInt64)
    (lockReason : Bytes) (nowUnix : UInt64) : Result State := do
  let disputeAdmin ← okOr s.disputeAdmin .unauthorized
  requireAuth env caller
  require (caller = disputeAdmin) .unauthorized
  mapErr (validateFqdnSoroban name) .validation
  -- an expired name can be locked too
  let _ ← getEntry s name
  require (nowUnix ≤ lockedUntil) .invalidExpiry
  return { s with lock := s.lock.set name ⟨lockedUntil, lockReason⟩ }

/-- The dispute admin lifts a lock. -/
def unlockName (env : Env) (s : State) (name : Bytes) (caller : Address) : Result State := do
  let disputeAdmin ← okOr s.disputeAdmin .unauthorized
  requireAuth env caller
  require (caller = disputeAdmin) .unauthorized
  mapErr (validateFqdnSoroban name) .validation
  let _ ← okOr (s.lock name) .notFound
  return removeLock s name

/-! ## Queries -/

/-- The entry of an active name. -/
def resolve (s : State) (name : Bytes) (nowUnix : UInt64) : Result RegistryEntry := do
  mapErr (validateFqdnSoroban name) .validation
  let entry ← getEntry s name
  require (entry.isActiveAt nowUnix) .notActive
  return entry

/-- Where a name is in its life. -/
def nameState (s : State) (name : Bytes) (nowUnix : UInt64) : NameState :=
  match s.entry name with
  | none => .missing
  | some entry =>
      if entry.isActiveAt nowUnix then .active
      else if entry.isClaimableAt nowUnix then .claimable
      else .gracePeriod

/-- The names listed under an owner. -/
def namesForOwner (s : State) (owner : Address) : List Bytes := s.ownerNames.keys owner

/-- The indexed names whose entry is missing or belongs to somebody else. -/
def auditOwnerIndex (s : State) (owner : Address) : List Bytes :=
  (namesForOwner s owner).filter (fun name =>
    match s.entry name with
    | none       => true
    | some entry => entry.owner ≠ owner)

/-! ## Dispatch -/

/-- The state-changing entrypoints with their arguments. -/
inductive Call
  | initializeContract (admin : Address)
  | setNftContract (nftContract : Address)
  | setDisputeAdmin (disputeAdmin : Address)
  | upgrade (migrationData : Bytes)
  | register (name : Bytes) (owner : Address) (targetAddress metadataUri : Option Bytes)
      (nowUnix expiresAt gracePeriodEndsAt : UInt64)
  | transfer (name : Bytes) (caller newOwner : Address) (nowUnix : UInt64)
  | setResolver (name : Bytes) (caller : Address) (resolver : Option Bytes) (nowUnix : UInt64)
  | setTargetAddress (name : Bytes) (caller : Address) (targetAddress : Option Bytes)
      (nowUnix : UInt64)
  | setMetadata (name : Bytes) (caller : Address) (metadataUri : Option Bytes) (nowUnix : UInt64)
  | updateOwner (name : Bytes) (caller newOwner : Address)
  | renew (name : Bytes) (caller : Address) (expiresAt gracePeriodEndsAt nowUnix : UInt64)
  | burn (name : Bytes) (caller : Address) (nowUnix : UInt64)
  | lockName (name : Bytes) (caller : Address) (lockedUntil : UInt64) (lockReason : Bytes)
      (nowUnix : UInt64)
  | unlockName (name : Bytes) (caller : Address)
deriving DecidableEq, Repr

/-- One invocation of the registry: its storage and the outside world after it. -/
def step (out : Outside ω) (self : Address) (sw : State × ω) (t : Tx Call) : Result (State × ω) :=
  let (s, w) := sw
  match t.call with
  | .initializeContract admin => return (← initializeContract s admin, w)
  | .setNftContract nftContract => return (← setNftContract t.env s nftContract, w)
  | .setDisputeAdmin disputeAdmin => return (← setDisputeAdmin t.env s disputeAdmin, w)
  | .upgrade migrationData => return (← upgrade t.env s migrationData, w)
  | .register name owner targetAddress metadataUri nowUnix expiresAt gracePeriodEndsAt =>
      register out self t.env s w name owner targetAddress metadataUri nowUnix expiresAt
        gracePeriodEndsAt
  | .transfer name caller newOwner nowUnix => transfer out self t.env s w name caller newOwner nowUnix
  | .setResolver name caller resolver nowUnix =>
      return (← setResolver out t.env s name caller resolver nowUnix, w)
  | .setTargetAddress name caller targetAddress nowUnix =>
      return (← setTargetAddress t.env s name caller targetAddress nowUnix, w)
  | .setMetadata name caller metadataUri nowUnix =>
      return (← setMetadata t.env s name caller metadataUri nowUnix, w)
  | .updateOwner name caller newOwner => return (← updateOwner t.env s name caller newOwner, w)
  | .renew name caller expiresAt gracePeriodEndsAt nowUnix =>
      renew out self t.env s w name caller expiresAt gracePeriodEndsAt nowUnix
  | .burn name caller nowUnix => burn out self t.env s w name caller nowUnix
  | .lockName name caller lockedUntil lockReason nowUnix =>
      return (← lockName t.env s name caller lockedUntil lockReason nowUnix, w)
  | .unlockName name caller => return (← unlockName t.env s name caller, w)

end XlmNs.Registry
