import Mathlib.Data.Finmap
import XlmNs.Common.Names
import XlmNs.Common.Upgrade
import XlmNs.Soroban.Store

/-!
# `Resolver.Contract` — the resolver contract (`contracts/resolver/src/lib.rs`)

The resolver maps names to addresses and text records (forward), and addresses back to names (reverse and
primary). With a registry configured it asks that registry who owns a name; without one it trusts the owner
stored in its own record.

The two contracts it calls are parameters (`Outside`): `registry.resolve`, which reads only, and the subdomain
contract's `max_depth`. Events are in `Resolver.Events`; storage TTLs are not modelled: no entrypoint reads them back.
-/

namespace XlmNs.Resolver

open Soroban

/-- A host `Map<String, String>`. -/
abbrev StringMap := Finmap (fun _ : Bytes => Bytes)

/-- What the resolver keeps of a name. The stored flag is not the one that is served. -/
structure ResolutionRecord where
  owner       : Address
  addresses   : StringMap
  textRecords : StringMap
  updatedAt   : UInt64
  isWildcard  : Bool
deriving DecidableEq

/-- One operation of `batch_set`. -/
inductive BatchOp
  /-- update the default-chain address -/
  | setAddress (address : Bytes)
  /-- set or update a text record -/
  | setText (key value : Bytes)
deriving DecidableEq, Repr

/-- What an entrypoint of the resolver may refuse with. -/
inductive ResolverError
  | validation
  | recordNotFound
  | unauthorized
  | tooManyTextRecords
  | notInitialized
  | textRecordValueTooLong
  | invalidChain
  | invalidKey
  | batchTooLarge
  | upgradeFailed
deriving DecidableEq, Repr

/-- The resolver's storage, one field per `DataKey`. -/
structure State where
  forward           : Store Bytes ResolutionRecord
  reverse           : Store Bytes Bytes
  primary           : Store Bytes Bytes
  wildcard          : Store Bytes Bool
  registry          : Option Address
  subdomainContract : Option Address
  admin             : Option Address
  contractVersion   : Option UInt32

/-- A freshly deployed resolver. -/
def State.empty : State where
  forward           := fun _ => none
  reverse           := fun _ => none
  primary           := fun _ => none
  wildcard          := fun _ => none
  registry          := none
  subdomainContract := none
  admin             := none
  contractVersion   := none

/-- What the resolver reads from other contracts; `none` is a failing call. -/
structure Outside (ω : Type) where
  /-- `registry.resolve(name, now_unix)` at the given address -/
  registryResolve : Address → Bytes → UInt64 → ω → Option RegistryEntry
  /-- `max_depth()` of the subdomain contract at the given address -/
  maxDepth        : Address → ω → Option UInt32

/-- A world in which no call comes through. -/
def nothingOutside : Outside Unit where
  registryResolve _ _ _ _ := none
  maxDepth _ _            := none

variable {ω : Type}

/-- How an entrypoint of the resolver ends. -/
abbrev Result (α : Type) := Outcome ResolverError α

/-- `DEFAULT_CHAIN` -/
def defaultChain : Bytes := ascii "stellar"

/-- `record.addresses.get(String::from_str(&env, DEFAULT_CHAIN))` -/
def ResolutionRecord.defaultAddress (record : ResolutionRecord) : Option Bytes :=
  record.addresses.lookup defaultChain

/-- `DEFAULT_FALLBACK_DEPTH` -/
def defaultFallbackDepth : UInt32 := 3

/-- `MAX_BATCH_OPS` -/
def maxBatchOps : Nat := 16

/-- `MAX_TEXT_RECORDS` -/
def maxTextRecords : Nat := 16

/-- `MAX_TEXT_RECORD_VALUE_LENGTH`, in bytes. -/
def maxTextRecordValueLength : Nat := 256

/-! ## Helpers -/

/-- The record of a name, or `RecordNotFound`. -/
def getRecord (s : State) (name : Bytes) : Result ResolutionRecord :=
  okOr (s.forward name) .recordNotFound

/-- Write the record of a name. -/
def putRecord (s : State) (name : Bytes) (record : ResolutionRecord) : State :=
  { s with forward := s.forward.set name record }

/-- The owner according to the configured registry, `none` when none is configured. -/
def registryOwner (out : Outside ω) (s : State) (w : ω) (name : Bytes) (nowUnix : UInt64) :
    Result (Option Address) :=
  match s.registry with
  | none => return none
  | some registry => do
      let entry ← invoke (out.registryResolve registry name nowUnix w)
      return some entry.owner

/-- The caller is the owner: the registry's where one is configured, else the record's. -/
def assertOwner (out : Outside ω) (s : State) (w : ω) (name : Bytes) (record : ResolutionRecord)
    (caller : Address) (nowUnix : UInt64) : Result Unit := do
  match ← registryOwner out s w name nowUnix with
  | some owner => require (owner = caller) .unauthorized
  | none       => require (record.owner = caller) .unauthorized

/-- Remove the reverse and the primary mapping of an address. -/
def removeMappings (s : State) (address : Bytes) : State :=
  { s with reverse := s.reverse.remove address, primary := s.primary.remove address }

/-- The clean-up before a name gets a new default-chain address: the mappings of the old one go. -/
def unlinkOld (s : State) (record : ResolutionRecord) (address : Bytes) : State :=
  match record.defaultAddress with
  | some old => if old ≠ address then removeMappings s old else s
  | none     => s

/-- Let an address lead to a name. -/
def setReverse (s : State) (address name : Bytes) : State :=
  { s with reverse := s.reverse.set address name }

/-- A byte that the key of a text record may have. -/
def isTextRecordKeyByte (b : UInt8) : Bool :=
  isAsciiLowercase b || isAsciiDigit b || b == dot || b == hyphen || b == 95

/-- 1 to 64 bytes of `a-z`, `0-9`, `.`, `-`, `_`. -/
def validateTextRecordKey (key : Bytes) : Except Unit Unit :=
  if key.length = 0 ∨ 64 < key.length then .error ()
  else if key.all isTextRecordKeyByte then .ok () else .error ()

/-- There is no room for a new key. -/
def TextRecordsFull (texts : StringMap) (key : Bytes) : Prop := key ∉ texts ∧ maxTextRecords ≤ texts.keys.card

instance (texts : StringMap) (key : Bytes) : Decidable (TextRecordsFull texts key) :=
  inferInstanceAs (Decidable (_ ∧ _))

/-! ## Administration -/

/-- `initialize` -/
def initializeContract (s : State) (registry admin : Address) : Result State := do
  require (s.registry = none) .unauthorized
  return { s with
    registry := some registry, admin := some admin, contractVersion := some XlmNs.contractVersion }

/-- The admin names the contract that is asked how far to fall back. -/
def setSubdomainContract (env : Env) (s : State) (subdomainContract : Address) : Result State := do
  let admin ← okOr s.admin .notInitialized
  requireAuth env admin
  return { s with subdomainContract := some subdomainContract }

/-- The model follows `upgrade` up to the replacement of the code; every `migrate` step is a no-op. -/
def upgrade (env : Env) (s : State) (migrationData : Bytes) : Result State :=
  upgradeStoring (fun version => { s with contractVersion := some version }) env s.admin .upgradeFailed
    s.contractVersion migrationData

/-! ## Writing records -/

/-- The owner gives a name a record with one address, which leads back to the name. -/
def setRecord (out : Outside ω) (env : Env) (s : State) (w : ω) (name : Bytes) (owner : Address)
    (address : Bytes) (nowUnix : UInt64) : Result State := do
  requireAuth env owner
  mapErr (validateFqdnSoroban name) .validation
  let registryBackedOwner ← registryOwner out s w name nowUnix
  -- when there is a registry owner it equals `owner`, so `owner` is the canonical owner either way
  require (∀ registryOwner ∈ registryBackedOwner, registryOwner = owner) .unauthorized
  require (∀ existing ∈ s.forward name, registryBackedOwner = none → existing.owner = owner)
    .unauthorized
  let s' := match s.forward name with
    | some existing => unlinkOld s existing address
    | none          => s
  let record : ResolutionRecord :=
    { owner       := owner
      addresses   := (((s.forward name).map ResolutionRecord.addresses).getD ∅).insert defaultChain address
      textRecords := ((s.forward name).map ResolutionRecord.textRecords).getD ∅
      updatedAt   := nowUnix
      isWildcard  := false }
  return setReverse (putRecord s' name record) address name

/-- The owner sets the address of a chain. On the default chain the mappings follow. -/
def setAddress (out : Outside ω) (env : Env) (s : State) (w : ω) (name : Bytes) (caller : Address)
    (chain address : Bytes) (nowUnix : UInt64) : Result State := do
  requireAuth env caller
  let record ← getRecord s name
  assertOwner out s w name record caller nowUnix
  -- only addresses of the default chain have reverse mappings
  let s := if chain = defaultChain then setReverse (unlinkOld s record address) address name else s
  return putRecord s name { record with
    addresses := record.addresses.insert chain address, updatedAt := nowUnix }

/-- The owner sets a text record. -/
def setTextRecord (out : Outside ω) (env : Env) (s : State) (w : ω) (name : Bytes) (caller : Address)
    (key value : Bytes) (nowUnix : UInt64) : Result State := do
  requireAuth env caller
  mapErr (validateTextRecordKey key) .invalidKey
  require (value.length ≤ maxTextRecordValueLength) .textRecordValueTooLong
  let record ← getRecord s name
  assertOwner out s w name record caller nowUnix
  require (¬ TextRecordsFull record.textRecords key) .tooManyTextRecords
  return putRecord s name { record with
    textRecords := record.textRecords.insert key value, updatedAt := nowUnix }

/-- Ownership is checked at time 0, whatever the ledger clock says. -/
def setPrimaryName (out : Outside ω) (env : Env) (s : State) (w : ω) (address : Bytes)
    (caller : Address) (name : Bytes) : Result State := do
  requireAuth env caller
  let record ← getRecord s name
  assertOwner out s w name record caller 0
  require (record.defaultAddress = some address) .unauthorized
  return { s with primary := s.primary.set address name }

/-- The owner drops the record of a name. -/
def removeRecord (out : Outside ω) (env : Env) (s : State) (w : ω) (name : Bytes) (caller : Address) :
    Result State := do
  requireAuth env caller
  let record ← getRecord s name
  assertOwner out s w name record caller 0
  -- both mappings of the address go, whichever names they point at
  let s := match record.defaultAddress with
    | some stellarAddr => removeMappings s stellarAddr
    | none             => s
  return { s with forward := s.forward.remove name, wildcard := s.wildcard.remove name }

/-- Remove the mappings of `address` that point at `name`. -/
def cleanupStaleReverse (s : State) (address name : Bytes) : State :=
  { s with
    reverse := if s.reverse address = some name then s.reverse.remove address else s.reverse
    primary := if s.primary address = some name then s.primary.remove address else s.primary }

/-- Called by the registry after a transfer. -/
def clearReverseRecord (env : Env) (s : State) (name : Bytes) (previousOwner : Address) :
    Result State := do
  let registry ← invoke s.registry
  requireAuth env registry
  return cleanupStaleReverse s previousOwner.toString name

/-- The owner writes another owner into the record. -/
def updateOwner (out : Outside ω) (env : Env) (s : State) (w : ω) (name : Bytes)
    (caller newOwner : Address) : Result State := do
  requireAuth env caller
  let record ← getRecord s name
  assertOwner out s w name record caller 0
  return putRecord s name { record with owner := newOwner }

/-- The registry is not consulted here. -/
def transferRecordOwner (env : Env) (s : State) (name : Bytes) (caller newOwner : Address) :
    Result State := do
  requireAuth env caller
  let record ← getRecord s name
  require (record.owner = caller) .unauthorized
  return putRecord s name { record with owner := newOwner }

/-- The caller's signature is not required here. -/
def setWildcardResolution (out : Outside ω) (s : State) (w : ω) (name : Bytes) (caller : Address)
    (enabled : Bool) (nowUnix : UInt64) : Result State := do
  mapErr (validateFqdnSoroban name) .validation
  let record ← getRecord s name
  assertOwner out s w name record caller nowUnix
  return { s with wildcard := s.wildcard.set name enabled }

/-! ## Batches -/

/-- One pass of the loop of `batch_set`: invalid operations are skipped. -/
def applyOp (name : Bytes) (acc : State × ResolutionRecord × UInt32) (op : BatchOp) :
    State × ResolutionRecord × UInt32 :=
  let (s, record, applied) := acc
  match op with
  | .setAddress newAddr =>
      (setReverse (unlinkOld s record newAddr) newAddr name,
        { record with addresses := record.addresses.insert defaultChain newAddr }, applied + 1)
  | .setText key value =>
      if validateTextRecordKey key ≠ .ok () ∨ maxTextRecordValueLength < value.length ∨
          TextRecordsFull record.textRecords key then acc
      else (s, { record with textRecords := record.textRecords.insert key value }, applied + 1)

/-- Up to sixteen operations of the owner on one record. -/
def batchSet (out : Outside ω) (env : Env) (s : State) (w : ω) (name : Bytes) (caller : Address)
    (ops : List BatchOp) (nowUnix : UInt64) : Result (State × UInt32) := do
  mapErr (validateFqdnSoroban name) .validation
  requireAuth env caller
  require (ops.length ≤ maxBatchOps) .batchTooLarge
  let record ← getRecord s name
  assertOwner out s w name record caller nowUnix
  let (s, record, applied) := ops.foldl (applyOp name) (s, record, 0)
  return (putRecord s name { record with updatedAt := nowUnix }, applied)

/-! ## Forward resolution -/

/-- A name answers for the names below it unless its owner said otherwise. -/
def wildcardResolutionEnabled (s : State) (name : Bytes) : Bool := (s.wildcard name).getD true

/-- Everything after the leftmost dot. -/
def parentName (name : Bytes) : Option Bytes :=
  if name.length = 0 ∨ 256 < name.length then none
  else match name.findIdx? (· == dot) with
    | none => none
    | some dotPos =>
        let parent := name.drop (dotPos + 1)
        if parent.isEmpty then none else some parent

/-- How far a lookup falls back: what the subdomain contract says, or the default. -/
def fallbackDepthLimit (out : Outside ω) (s : State) (w : ω) : UInt32 :=
  match s.subdomainContract with
  | none => defaultFallbackDepth
  | some subdomainContract => (out.maxDepth subdomainContract w).getD defaultFallbackDepth

/-- The loop of `resolve_with_fallback`, with the hops still allowed. -/
def resolveFrom (s : State) (name : Bytes) (hops : Nat) (current : Bytes) :
    Option (ResolutionRecord × Bool) :=
  match s.forward current with
  | some record =>
      -- an exact record, or the nearest ancestor's if its wildcard flag allows
      if current = name then some (record, false)
      else if wildcardResolutionEnabled s current then some (record, true)
      else none
  | none =>
      match hops with
      | 0 => none
      | hops + 1 =>
          match parentName current with
          | none        => none
          | some parent => resolveFrom s name hops parent

/-- The record that answers for a name, and whether it is a parent's. -/
def resolveWithFallback (out : Outside ω) (s : State) (w : ω) (name : Bytes) :
    Option (ResolutionRecord × Bool) :=
  match validateFqdnSoroban name with
  | .error _ => none
  | .ok _    => resolveFrom s name (fallbackDepthLimit out s w).toNat name

/-- The record that answers for a name, with the flag that says so. -/
def resolve (out : Outside ω) (s : State) (w : ω) (name : Bytes) : Option ResolutionRecord :=
  (resolveWithFallback out s w name).map (fun (record, isWildcard) => { record with isWildcard })

/-! ## Reverse resolution -/

/-- The forward record still has the address, and the registry still agrees on the owner. -/
def reverseLookupMatchesCurrentOwner (out : Outside ω) (env : Env) (s : State) (w : ω)
    (name address : Bytes) : Bool :=
  match s.forward name with
  | none => false
  | some record =>
      if record.defaultAddress ≠ some address then false
      else match s.registry with
        | none => true
        | some registry =>
            match out.registryResolve registry name env.timestamp w with
            | some entry => entry.owner = record.owner
            | none       => false

/-- One of the two lookups of `reverse`: an outdated mapping is removed on the way. -/
def reverseThrough (out : Outside ω) (env : Env) (s : State) (w : ω) (mapping : Store Bytes Bytes)
    (address : Bytes) : State × Option Bytes :=
  match mapping address with
  | none => (s, none)
  | some name =>
      if reverseLookupMatchesCurrentOwner out env s w name address then (s, some name)
      else (cleanupStaleReverse s address name, none)

/-- The primary mapping first, then the reverse mapping. -/
def reverse (out : Outside ω) (env : Env) (s : State) (w : ω) (address : Bytes) :
    State × Option Bytes :=
  match reverseThrough out env s w s.primary address with
  | (s, some name) => (s, some name)
  | (s, none)      => reverseThrough out env s w s.reverse address

/-- The names of several addresses, one lookup after the other. -/
def batchReverse (out : Outside ω) (env : Env) (s : State) (w : ω) :
    List Bytes → State × List (Option Bytes)
  | [] => (s, [])
  | address :: addresses =>
      let (s, found) := reverse out env s w address
      let (s, rest) := batchReverse out env s w addresses
      (s, found :: rest)

/-! ## Dispatch -/

/-- The state-changing entrypoints with their arguments; reverse queries are among them. -/
inductive Call
  | initializeContract (registry admin : Address)
  | setSubdomainContract (subdomainContract : Address)
  | upgrade (migrationData : Bytes)
  | setRecord (name : Bytes) (owner : Address) (address : Bytes) (nowUnix : UInt64)
  | setAddress (name : Bytes) (caller : Address) (chain address : Bytes) (nowUnix : UInt64)
  | setTextRecord (name : Bytes) (caller : Address) (key value : Bytes) (nowUnix : UInt64)
  | setPrimaryName (address : Bytes) (caller : Address) (name : Bytes)
  | removeRecord (name : Bytes) (caller : Address)
  | clearReverseRecord (name : Bytes) (previousOwner : Address)
  | updateOwner (name : Bytes) (caller newOwner : Address)
  | reverse (address : Bytes)
  | transferRecordOwner (name : Bytes) (caller newOwner : Address)
  | setWildcardResolution (name : Bytes) (caller : Address) (enabled : Bool) (nowUnix : UInt64)
  | batchReverse (addresses : List Bytes)
  | batchSet (name : Bytes) (caller : Address) (ops : List BatchOp) (nowUnix : UInt64)
deriving DecidableEq, Repr

/-- One invocation of the resolver. The rest of the world is only read. -/
def step (out : Outside ω) (w : ω) (s : State) (t : Tx Call) : Result State :=
  match t.call with
  | .initializeContract registry admin => initializeContract s registry admin
  | .setSubdomainContract subdomainContract => setSubdomainContract t.env s subdomainContract
  | .upgrade migrationData => upgrade t.env s migrationData
  | .setRecord name owner address nowUnix => setRecord out t.env s w name owner address nowUnix
  | .setAddress name caller chain address nowUnix =>
      setAddress out t.env s w name caller chain address nowUnix
  | .setTextRecord name caller key value nowUnix =>
      setTextRecord out t.env s w name caller key value nowUnix
  | .setPrimaryName address caller name => setPrimaryName out t.env s w address caller name
  | .removeRecord name caller => removeRecord out t.env s w name caller
  | .clearReverseRecord name previousOwner => clearReverseRecord t.env s name previousOwner
  | .updateOwner name caller newOwner => updateOwner out t.env s w name caller newOwner
  | .reverse address => return (reverse out t.env s w address).1
  | .transferRecordOwner name caller newOwner => transferRecordOwner t.env s name caller newOwner
  | .setWildcardResolution name caller enabled nowUnix =>
      setWildcardResolution out s w name caller enabled nowUnix
  | .batchReverse addresses => return (batchReverse out t.env s w addresses).1
  | .batchSet name caller ops nowUnix => return (← batchSet out t.env s w name caller ops nowUnix).1

end XlmNs.Resolver
