import XlmNs.Common.Names
import XlmNs.Common.Types
import XlmNs.Soroban.Store

/-!
# `Subdomain.Contract` — the subdomain contract (`contracts/subdomain/src/lib.rs`)

A parent domain is registered once with its owner, who may add controllers; owner and controllers create and
revoke subdomains below it. The contract keeps its own copy of the parent's owner (`ParentDomain`). It asks the
registry whose the name is when a parent is registered, and afterwards only whether the name is Active.

A parent found inactive is purged together with its subdomains. In a call that goes on to fail the purge is rolled
back with everything else, so it is committed by the queries only. Both registry calls go through
`try_invoke_contract` and read only: `Outside` gives their answers from the state `ω` of everything outside.
-/

namespace XlmNs.Subdomain

open Soroban

/-- What an entrypoint of the subdomain contract may refuse with. -/
inductive SubdomainError
  | validation
  | parentNotFound
  | alreadyExists
  | notFound
  | unauthorized
  | upgradeFailed
  | depthLimitExceeded
deriving DecidableEq, Repr

/-- Who may create names below a parent. -/
structure ParentDomain where
  owner       : Address
  controllers : List Address
deriving DecidableEq, Repr

/-- What the contract keeps of a subdomain. -/
structure SubdomainRecord where
  parent    : Bytes
  owner     : Address
  createdAt : UInt64
deriving DecidableEq, Repr

/-- The contract's storage, one field per `DataKey`. -/
structure State where
  parent           : Store Bytes ParentDomain
  subdomain        : Store Bytes SubdomainRecord
  parentSubdomains : Index Bytes Bytes
  ownerSubdomains  : Index Address Bytes
  registryContract : Option Address
  admin            : Option Address
  contractVersion  : Option UInt32
  maxDepth         : Option UInt32

/-- A freshly deployed contract. -/
def State.empty : State where
  parent           := fun _ => none
  subdomain        := fun _ => none
  parentSubdomains := fun _ => none
  ownerSubdomains  := fun _ => none
  registryContract := none
  admin            := none
  contractVersion  := none
  maxDepth         := none

/-- What the contract reads outside its own storage; `none` is a failing call. -/
structure Outside (ω : Type) where
  /-- `resolve(name, now_unix)` of the registry at an address -/
  registryResolve : Address → Bytes → UInt64 → ω → Option RegistryEntry
  /-- `name_state(name, now_unix)` of the registry at an address -/
  nameState       : Address → Bytes → UInt64 → ω → Option NameState

/-- A world in which no call comes through. -/
def nothingOutside : Outside Unit where
  registryResolve _ _ _ _ := none
  nameState _ _ _ _       := none

variable {ω : Type}

/-- How an entrypoint of the subdomain contract ends. -/
abbrev Result (α : Type) := Outcome SubdomainError α

/-! ## Indexes -/

/-- The subdomains listed under a parent. -/
def getParentSubdomains (s : State) (parent : Bytes) : List Bytes := s.parentSubdomains.keys parent

/-- List a subdomain under its parent. -/
def addParentSubdomain (s : State) (parent fqdn : Bytes) : State :=
  { s with parentSubdomains := s.parentSubdomains.push parent fqdn }

/-- Take a subdomain off its parent's list. -/
def removeParentSubdomain (s : State) (parent fqdn : Bytes) : State :=
  { s with parentSubdomains := s.parentSubdomains.eraseFirst parent fqdn }

/-- The subdomains listed under an owner. -/
def getOwnerSubdomains (s : State) (owner : Address) : List Bytes := s.ownerSubdomains.keys owner

/-- List a subdomain under its owner. -/
def addOwnerSubdomain (s : State) (owner : Address) (fqdn : Bytes) : State :=
  { s with ownerSubdomains := s.ownerSubdomains.push owner fqdn }

/-- Take a subdomain off its owner's list. -/
def removeOwnerSubdomain (s : State) (owner : Address) (fqdn : Bytes) : State :=
  { s with ownerSubdomains := s.ownerSubdomains.eraseFirst owner fqdn }

/-! ## Purging -/

/-- Delete a subdomain, from both lists too. -/
def purgeSubdomainRecord (s : State) (fqdn : Bytes) (record : SubdomainRecord) : State :=
  let s := removeOwnerSubdomain (removeParentSubdomain s record.parent fqdn) record.owner fqdn
  { s with subdomain := s.subdomain.remove fqdn }

/-- The body of the purging loop. -/
def purgeListed (s : State) (fqdn : Bytes) : State :=
  match s.subdomain fqdn with
  | some record => purgeSubdomainRecord s fqdn record
  | none        => s

/-- Delete a parent with the subdomains it lists. -/
def purgeParentNamespace (s : State) (parent : Bytes) : State :=
  let s := (getParentSubdomains s parent).foldl purgeListed s
  { s with parentSubdomains := s.parentSubdomains.remove parent, parent := s.parent.remove parent }

/-- The answer, and the storage with an inactive parent purged. -/
def ensureParentIsActive (out : Outside ω) (env : Env) (s : State) (w : ω) (parent : Bytes) :
    State × Bool :=
  match s.registryContract with
  | none          => (s, true)
  | some registry =>
      if out.nameState registry parent env.timestamp w = some .active then (s, true)
      else (purgeParentNamespace s parent, false)

/-! ## Helpers -/

/-- `ensure_parent_is_active` in a call that fails unless the parent is active. -/
def requireActive (out : Outside ω) (env : Env) (s : State) (w : ω) (parent : Bytes) : Result Unit :=
  require ((ensureParentIsActive out env s w parent).2 = true) .parentNotFound

/-- The record of an active parent, or `ParentNotFound`. -/
def getParent (out : Outside ω) (env : Env) (s : State) (w : ω) (parent : Bytes) :
    Result ParentDomain := do
  requireActive out env s w parent
  okOr (s.parent parent) .parentNotFound

/-- The record of a subdomain, or `NotFound`. -/
def getSubdomain (s : State) (fqdn : Bytes) : Result SubdomainRecord := okOr (s.subdomain fqdn) .notFound

/-- `parent_record.owner == caller || parent_record.controllers.contains(&caller)` -/
def ParentDomain.Admits (parentRecord : ParentDomain) (caller : Address) : Prop :=
  parentRecord.owner = caller ∨ caller ∈ parentRecord.controllers

instance (parentRecord : ParentDomain) (caller : Address) : Decidable (parentRecord.Admits caller) :=
  inferInstanceAs (Decidable (_ ∨ _))

/-- A slice of a 256-byte buffer; a longer one panics. -/
def bufferSlice (length : Nat) : Result Unit := if length ≤ 256 then .ok () else .error .trap

/-! ## Administration -/

/-- `initialize` -/
def initializeContract (s : State) (admin : Address) : Result State := do
  require (s.admin = none) .alreadyExists
  return { s with
    admin := some admin, contractVersion := some XlmNs.contractVersion, maxDepth := some 3 }

/-- The admin names the registry that is asked about parents. -/
def setRegistryContract (env : Env) (s : State) (registryContract : Address) : Result State := do
  let admin ← okOr s.admin .unauthorized
  requireAuth env admin
  return { s with registryContract := some registryContract }

/-- The admin sets how many labels a subdomain may add. -/
def setMaxDepth (env : Env) (s : State) (depth : UInt32) : Result State := do
  let admin ← okOr s.admin .unauthorized
  requireAuth env admin
  return { s with maxDepth := some depth }

/-- The configured depth, or three. -/
def maxDepth (s : State) : UInt32 := s.maxDepth.getD 3

/-- `get_version` -/
def getVersion (s : State) : UInt32 := s.contractVersion.getD XlmNs.contractVersion

/-- The model follows `upgrade` up to the replacement of the code; the stored version is not written. -/
def upgrade (env : Env) (s : State) : Result State := do
  let admin ← okOr s.admin .upgradeFailed
  requireAuth env admin
  return s

/-! ## Parents and their controllers -/

/-- The registry and storage checks of `register_parent`: with a registry configured its owner decides, and
    a record of a previous owner is purged; without one the first comer keeps the name. -/
def vacateParent (out : Outside ω) (env : Env) (s : State) (w : ω) (parent : Bytes) (owner : Address) :
    Result State :=
  match s.registryContract with
  | some registry => do
      -- a failing `resolve` also purges the namespace, and the error rolls that back
      let entry ← okOr (out.registryResolve registry parent env.timestamp w) .parentNotFound
      require (entry.owner = owner) .unauthorized
      match s.parent parent with
      | some existing => do
          require (existing.owner ≠ entry.owner) .alreadyExists
          return purgeParentNamespace s parent
      | none => return s
  | none => do
      require (s.parent parent = none) .alreadyExists
      return s

/-- The owner of a name may register it as a parent. -/
def registerParent (out : Outside ω) (env : Env) (s : State) (w : ω) (parent : Bytes)
    (owner : Address) : Result State := do
  requireAuth env owner
  mapErr (validateFqdnSoroban parent) .validation
  mapErr (validateBaseNameSoroban parent) .validation
  let s ← vacateParent out env s w parent owner
  return { s with parent := s.parent.set parent ⟨owner, []⟩ }

/-- The owner of a parent lets somebody else create names below it. -/
def addController (out : Outside ω) (env : Env) (s : State) (w : ω) (parent : Bytes)
    (caller controller : Address) : Result State := do
  requireAuth env caller
  let parentRecord ← getParent out env s w parent
  require (parentRecord.owner = caller) .unauthorized
  if controller ∈ parentRecord.controllers then
    return s
  else
    let controllers := parentRecord.controllers ++ [controller]
    return { s with parent := s.parent.set parent { parentRecord with controllers := controllers } }

/-- The owner ends that. -/
def removeController (out : Outside ω) (env : Env) (s : State) (w : ω) (parent : Bytes)
    (caller controller : Address) : Result State := do
  requireAuth env caller
  let parentRecord ← getParent out env s w parent
  require (parentRecord.owner = caller) .unauthorized
  if controller ∈ parentRecord.controllers then
    let controllers := parentRecord.controllers.erase controller
    return { s with parent := s.parent.set parent { parentRecord with controllers := controllers } }
  else
    return s

/-! ## Subdomains -/

/-- Returns the new name with the storage. The label is not validated: only its dots are counted. -/
def create (out : Outside ω) (env : Env) (s : State) (w : ω) (label parent : Bytes)
    (caller owner : Address) (nowUnix : UInt64) : Result (State × Bytes) := do
  requireAuth env caller
  let parentRecord ← getParent out env s w parent
  require (parentRecord.Admits caller) .unauthorized
  bufferSlice label.length
  bufferSlice parent.length
  require (label ≠ [] → 1 + label.count dot ≤ (maxDepth s).toNat) .depthLimitExceeded
  bufferSlice (label.length + 1 + parent.length)
  let fqdn := label ++ dot :: parent
  require (s.subdomain fqdn = none) .alreadyExists
  let s := { s with subdomain := s.subdomain.set fqdn ⟨parent, owner, nowUnix⟩ }
  return (addOwnerSubdomain (addParentSubdomain s parent fqdn) owner fqdn, fqdn)

/-- The owner of a subdomain hands it on. -/
def transfer (out : Outside ω) (env : Env) (s : State) (w : ω) (fqdn : Bytes)
    (caller newOwner : Address) : Result State := do
  requireAuth env caller
  let record ← getSubdomain s fqdn
  requireActive out env s w record.parent
  require (record.owner = caller) .unauthorized
  let s := { s with subdomain := s.subdomain.set fqdn { record with owner := newOwner } }
  return addOwnerSubdomain (removeOwnerSubdomain s record.owner fqdn) newOwner fqdn

/-- What is written is what a purge of the one record writes, here and in `revoke`. -/
def delete (out : Outside ω) (env : Env) (s : State) (w : ω) (fqdn : Bytes) (caller : Address) :
    Result State := do
  requireAuth env caller
  let record ← getSubdomain s fqdn
  requireActive out env s w record.parent
  if record.owner ≠ caller then
    let parentRecord ← getParent out env s w record.parent
    require (parentRecord.Admits caller) .unauthorized
  return purgeSubdomainRecord s fqdn record

/-- A missing parent record counts as a caller without authority. -/
def revoke (out : Outside ω) (env : Env) (s : State) (w : ω) (fqdn : Bytes) (caller : Address) :
    Result State := do
  requireAuth env caller
  let record ← getSubdomain s fqdn
  requireActive out env s w record.parent
  let isAuthorized : Bool :=
    if record.owner = caller then true
    else
      match getParent out env s w record.parent with
      | .ok parentRecord => decide (parentRecord.Admits caller)
      | .error _         => false
  require (isAuthorized = true) .unauthorized
  return purgeSubdomainRecord s fqdn record

/-! ## Queries -/

/-- The record of a parent; what lies below one that is not active is purged. -/
def parent (out : Outside ω) (env : Env) (s : State) (w : ω) (name : Bytes) :
    State × Option ParentDomain :=
  match ensureParentIsActive out env s w name with
  | (s, true)  => (s, s.parent name)
  | (s, false) => (s, none)

/-- The record of a subdomain; one whose parent is not active is purged. -/
def record (out : Outside ω) (env : Env) (s : State) (w : ω) (fqdn : Bytes) :
    State × Option SubdomainRecord :=
  match s.subdomain fqdn with
  | none => (s, none)
  | some record =>
      match ensureParentIsActive out env s w record.parent with
      | (s, true)  => (s, some record)
      | (s, false) => (purgeSubdomainRecord s fqdn record, none)

/-- `exists` -/
def existsRecord (out : Outside ω) (env : Env) (s : State) (w : ω) (fqdn : Bytes) : State × Bool :=
  let (s, found) := record out env s w fqdn
  (s, found.isSome)

/-- The subdomains below an active parent. -/
def subdomainsForParent (out : Outside ω) (env : Env) (s : State) (w : ω) (parent : Bytes) :
    State × List Bytes :=
  match ensureParentIsActive out env s w parent with
  | (s, true)  => (s, getParentSubdomains s parent)
  | (s, false) => (s, [])

/-- `subdomains_for_owner` purges nothing. -/
def subdomainsForOwner (s : State) (owner : Address) : List Bytes := getOwnerSubdomains s owner

/-! ## Dispatch -/

/-- The entrypoints that can write, with their arguments; the queries among them purge. -/
inductive Call
  | initializeContract (admin : Address)
  | setRegistryContract (registryContract : Address)
  | setMaxDepth (depth : UInt32)
  | upgrade
  | registerParent (parent : Bytes) (owner : Address)
  | addController (parent : Bytes) (caller controller : Address)
  | removeController (parent : Bytes) (caller controller : Address)
  | create (label parent : Bytes) (caller owner : Address) (nowUnix : UInt64)
  | transfer (fqdn : Bytes) (caller newOwner : Address)
  | delete (fqdn : Bytes) (caller : Address)
  | revoke (fqdn : Bytes) (caller : Address)
  | parent (name : Bytes)
  | record (fqdn : Bytes)
  | existsRecord (fqdn : Bytes)
  | subdomainsForParent (parent : Bytes)
deriving DecidableEq, Repr

/-- One invocation of the contract: its storage afterwards. -/
def step (out : Outside ω) (w : ω) (s : State) (t : Tx Call) : Result State :=
  match t.call with
  | .initializeContract admin => initializeContract s admin
  | .setRegistryContract registryContract => setRegistryContract t.env s registryContract
  | .setMaxDepth depth => setMaxDepth t.env s depth
  | .upgrade => upgrade t.env s
  | .registerParent parent owner => registerParent out t.env s w parent owner
  | .addController parent caller controller => addController out t.env s w parent caller controller
  | .removeController parent caller controller =>
      removeController out t.env s w parent caller controller
  | .create label parent caller owner nowUnix =>
      return (← create out t.env s w label parent caller owner nowUnix).1
  | .transfer fqdn caller newOwner => transfer out t.env s w fqdn caller newOwner
  | .delete fqdn caller => delete out t.env s w fqdn caller
  | .revoke fqdn caller => revoke out t.env s w fqdn caller
  | .parent name => return (parent out t.env s w name).1
  | .record fqdn => return (record out t.env s w fqdn).1
  | .existsRecord fqdn => return (existsRecord out t.env s w fqdn).1
  | .subdomainsForParent parent => return (subdomainsForParent out t.env s w parent).1

end XlmNs.Subdomain
