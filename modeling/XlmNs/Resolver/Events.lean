import XlmNs.Common.Upgrade
import XlmNs.Resolver.Mappings
import XlmNs.Soroban.EventLog

/-!
# `Resolver.Events` — what the resolver publishes

`events s t` is what the invocation `t` publishes if it commits in `s`, in the order of the source: `set_address`
publishes the reverse event before the forward one, `set_record` and `batch_set` after it. The calls that change only
the owner or the wildcard flag of a record publish nothing, and neither do the three that drop outdated mappings.

`Mirror` is the picture a follower keeps: addresses and text records of every name, and the two mappings, from which it
drops what the resolver drops when a name gets another address.
-/

namespace XlmNs.Resolver

open Soroban

/-- What the resolver publishes. -/
inductive Event
  | upgraded (oldVersion newVersion : UInt32) (admin : Address)
  | fwdSet (name address chain : Bytes) (nowUnix : UInt64)
  | revSet (address name : Bytes)
  | txtSet (name key value : Bytes) (nowUnix : UInt64)
  | primSet (address name : Bytes)
  | removed (name : Bytes) (formerAddress : Option Bytes)
deriving DecidableEq, Repr

/-- One pass of the loop of `batch_set`: a skipped operation publishes nothing. -/
def opEvents (name : Bytes) (nowUnix : UInt64) (record : ResolutionRecord) : BatchOp → List Event
  | .setAddress newAddr => [.fwdSet name newAddr defaultChain nowUnix, .revSet newAddr name]
  | .setText key value =>
      if validateTextRecordKey key ≠ .ok () ∨ maxTextRecordValueLength < value.length ∨
          TextRecordsFull record.textRecords key then []
      else [.txtSet name key value nowUnix]

/-- The loop of `batch_set`, whose operations see the record as the earlier ones left it. -/
def batchEvents (name : Bytes) (nowUnix : UInt64) : State × ResolutionRecord × UInt32 → List BatchOp → List Event
  | _, []          => []
  | acc, op :: ops => opEvents name nowUnix acc.2.1 op ++ batchEvents name nowUnix (applyOp name acc op) ops

/-- What an invocation publishes if it commits. -/
def events (s : State) (t : Tx Call) : List Event :=
  match t.call with
  | .upgrade migrationData =>
      match s.admin with
      | some admin => [.upgraded (getVersion s.contractVersion) (decodeTargetVersion migrationData) admin]
      | none       => []
  | .setRecord name _ address nowUnix => [.fwdSet name address defaultChain nowUnix, .revSet address name]
  | .setAddress name _ chain address nowUnix =>
      (if chain = defaultChain then [.revSet address name] else []) ++ [.fwdSet name address chain nowUnix]
  | .setTextRecord name _ key value nowUnix => [.txtSet name key value nowUnix]
  | .setPrimaryName address _ name => [.primSet address name]
  | .removeRecord name _ => [.removed name (addressOf s name)]
  | .batchSet name _ ops nowUnix =>
      match s.forward name with
      | some record => batchEvents name nowUnix (s, record, 0) ops
      | none        => []
  | .initializeContract .. | .setSubdomainContract .. | .clearReverseRecord .. | .updateOwner .. | .reverse ..
  | .transferRecordOwner .. | .setWildcardResolution .. | .batchReverse .. => []

/-- The log of a run. -/
def eventLog {ω : Type} (out : Outside ω) (s : State) (is : List (Invocation ω)) : List Event :=
  published (stepIn out) (fun s i => events s i.tx) s is

/-! ## A follower -/

/-- Addresses and text records of the names, and the two mappings. -/
structure Mirror where
  records : Store Bytes (StringMap × StringMap)
  reverse : Store Bytes Bytes
  primary : Store Bytes Bytes

/-- The addresses and the text records of a name, none if it has no record. -/
def Mirror.maps (m : Mirror) (name : Bytes) : StringMap × StringMap := (m.records name).getD (∅, ∅)

/-- A mapping without the address a name had, unless it is the one it gets. -/
def dropReplaced (old : Option Bytes) (address : Bytes) (mapping : Store Bytes Bytes) : Store Bytes Bytes :=
  match old with
  | some old => if old ≠ address then mapping.remove old else mapping
  | none     => mapping

/-- A mapping without the address a name had. -/
def dropFormer (former : Option Bytes) (mapping : Store Bytes Bytes) : Store Bytes Bytes :=
  match former with
  | some address => mapping.remove address
  | none         => mapping

/-- Apply an event. -/
def Mirror.apply (m : Mirror) : Event → Mirror
  | .fwdSet name address chain _ =>
      let (addresses, textRecords) := m.maps name
      let drop := if chain = defaultChain then dropReplaced (addresses.lookup defaultChain) address else id
      { records := m.records.set name (addresses.insert chain address, textRecords)
        reverse := drop m.reverse
        primary := drop m.primary }
  | .revSet address name => { m with reverse := m.reverse.set address name }
  | .txtSet name key value _ =>
      let (addresses, textRecords) := m.maps name
      { m with records := m.records.set name (addresses, textRecords.insert key value) }
  | .primSet address name => { m with primary := m.primary.set address name }
  | .removed name former =>
      { records := m.records.remove name
        reverse := dropFormer former m.reverse
        primary := dropFormer former m.primary }
  | .upgraded .. => m

/-- What a follower keeps of a record. -/
def ResolutionRecord.maps (record : ResolutionRecord) : StringMap × StringMap := (record.addresses, record.textRecords)

/-- The picture of a state. -/
def mirror (s : State) : Mirror := ⟨s.forward.view ResolutionRecord.maps, s.reverse, s.primary⟩

/-! ## The places of a record -/

/-- A place of a record: the address of a chain, or the text under a key. -/
inductive Slot
  | address (name chain : Bytes)
  | text (name key : Bytes)
deriving DecidableEq, Repr

/-- The name a place belongs to. -/
def Slot.name : Slot → Bytes
  | .address name _ => name
  | .text name _    => name

/-- What the records of a picture have in each place. -/
def Mirror.slots (m : Mirror) : Store Slot Bytes
  | .address name chain => (m.maps name).1.lookup chain
  | .text name key      => (m.maps name).2.lookup key

/-- The places an event writes. -/
def Event.patch : Event → Patch Slot Bytes
  | .fwdSet name address chain _ => fun slot => if slot = .address name chain then some (some address) else none
  | .txtSet name key value _     => fun slot => if slot = .text name key then some (some value) else none
  | .removed name _              => fun slot => if slot.name = name then some none else none
  | .upgraded .. | .revSet .. | .primSet .. => fun _ => none

end XlmNs.Resolver
