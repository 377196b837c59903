import XlmNs.Common.Upgrade
import XlmNs.Registry.Steps
import XlmNs.Soroban.EventLog

/-!
# `Registry.Events` — what the registry publishes

`events s t` is what the invocation `t` publishes if it commits in `s`. A registration publishes the burning of the
entry it replaces, if there is one, and nothing of the entry it makes; a renewal publishes nothing.
-/

namespace XlmNs.Registry

open Soroban

/-- What the registry publishes. -/
inductive Event
  | upgraded (oldVersion newVersion : UInt32) (admin : Address)
  | burn (name : Bytes) (owner : Address)
  | transfer (name : Bytes) (oldOwner newOwner : Address)
  | lockApplied (name : Bytes) (lockedUntil : UInt64) (lockReason : Bytes) (admin : Address)
  | lockRemoved (name : Bytes) (lockedUntil : UInt64) (lockReason : Bytes) (admin : Address)
deriving DecidableEq, Repr

/-- `(name.clone(), existing.owner)`, if there is an entry. -/
def burned (s : State) (name : Bytes) : List Event :=
  match s.entry name with
  | some entry => [.burn name entry.owner]
  | none       => []

/-- `(name.clone(), old_owner, new_owner.clone())` -/
def moved (s : State) (name : Bytes) (newOwner : Address) : List Event :=
  match s.entry name with
  | some entry => [.transfer name entry.owner newOwner]
  | none       => []

/-- What an invocation publishes if it commits. -/
def events (s : State) (t : Tx Call) : List Event :=
  match t.call with
  | .upgrade migrationData =>
      match s.admin with
      | some admin => [.upgraded (getVersion s.contractVersion) (decodeTargetVersion migrationData) admin]
      | none       => []
  | .register name .. => burned s name
  | .transfer name _ newOwner _ => moved s name newOwner
  | .updateOwner name _ newOwner => moved s name newOwner
  | .burn name .. => burned s name
  | .lockName name _ lockedUntil lockReason _ =>
      match s.disputeAdmin with
      | some admin => [.lockApplied name lockedUntil lockReason admin]
      | none       => []
  | .unlockName name _ =>
      match s.disputeAdmin, s.lock name with
      | some admin, some lock => [.lockRemoved name lock.lockedUntil lock.lockReason admin]
      | _, _                  => []
  | .initializeContract .. | .setNftContract .. | .setDisputeAdmin .. | .setResolver .. | .setTargetAddress ..
  | .setMetadata .. | .renew .. => []

theorem burned_eq {s : State} {name : Bytes} {e : RegistryEntry} (he : s.entry name = some e) :
    burned s name = [.burn name e.owner] := by
  rw [burned, he]

theorem moved_eq {s : State} {name : Bytes} {e : RegistryEntry} (he : s.entry name = some e) (newOwner : Address) :
    moved s name newOwner = [.transfer name e.owner newOwner] := by
  rw [moved, he]

end XlmNs.Registry
