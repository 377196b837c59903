import XlmNs.Soroban.EventLog
import XlmNs.Subdomain.Without

/-!
# `Subdomain.Events` — what the subdomain contract publishes

`events s t` is what the invocation `t` publishes if it commits in `s`. A controller that is added twice, or removed
when it is not there, is published once or not at all; the administration publishes nothing, and neither does a purge.

`Roll` is the picture a follower keeps: the parents with their controllers, and for each subdomain its parent and its
owner. It lets the namespace of a parent go when the parent is registered anew.
-/

namespace XlmNs.Subdomain

open Soroban

/-- What the subdomain contract publishes. -/
inductive Event
  | parentRegistered (parent : Bytes) (owner : Address)
  | controllerAdded (parent : Bytes) (caller controller : Address)
  | controllerRemoved (parent : Bytes) (caller controller : Address)
  | created (fqdn parent : Bytes) (caller owner : Address)
  | transfer (fqdn : Bytes) (oldOwner newOwner : Address)
  | deleted (fqdn : Bytes) (caller : Address)
  | revoked (fqdn : Bytes) (caller : Address)
deriving DecidableEq, Repr

/-- The controllers on record for a parent. -/
def controllersOf (s : State) (parent : Bytes) : List Address :=
  match s.parent parent with
  | some parentRecord => parentRecord.controllers
  | none              => []

/-- What an invocation publishes if it commits. -/
def events (s : State) (t : Tx Call) : List Event :=
  match t.call with
  | .registerParent parent owner => [.parentRegistered parent owner]
  | .addController parent caller controller =>
      if controller ∈ controllersOf s parent then [] else [.controllerAdded parent caller controller]
  | .removeController parent caller controller =>
      if controller ∈ controllersOf s parent then [.controllerRemoved parent caller controller] else []
  | .create label parent caller owner _ => [.created (label ++ dot :: parent) parent caller owner]
  | .transfer fqdn _ newOwner =>
      match s.subdomain fqdn with
      | some record => [.transfer fqdn record.owner newOwner]
      | none        => []
  | .delete fqdn caller => [.deleted fqdn caller]
  | .revoke fqdn caller => [.revoked fqdn caller]
  | .initializeContract .. | .setRegistryContract .. | .setMaxDepth .. | .upgrade | .parent .. | .record ..
  | .existsRecord .. | .subdomainsForParent .. => []

/-- The log of a run. -/
def eventLog {ω : Type} (out : Outside ω) (s : State) (ts : List (ω × Tx Call)) : List Event :=
  published (inWorlds (step out)) (fun s t => events s t.2) s ts

/-! ## A follower -/

/-- Parents, and the parent and the owner of each subdomain. -/
structure Roll where
  parents : Store Bytes ParentDomain
  records : Store Bytes (Bytes × Address)

/-- The owner of a subdomain, if it is held under this parent. -/
def heldUnder (parent : Bytes) (held : Bytes × Address) : Option Address :=
  if held.1 = parent then some held.2 else none

/-- The subdomains a roll has under a parent, with their owners. -/
def Roll.owners (r : Roll) (parent : Bytes) : Store Bytes Address := fun fqdn => (r.records fqdn).bind (heldUnder parent)

/-- Another list of controllers for a parent. -/
def Roll.control (r : Roll) (parent : Bytes) (edit : List Address → List Address) : Roll :=
  match r.parents parent with
  | some rec => { r with parents := r.parents.set parent { rec with controllers := edit rec.controllers } }
  | none     => r

/-- Apply an event. -/
def Roll.apply (r : Roll) : Event → Roll
  | .parentRegistered parent owner =>
      { parents := r.parents.set parent ⟨owner, []⟩
        records := r.records.hide fun fqdn => (r.owners parent fqdn).isSome }
  | .controllerAdded parent _ controller   => r.control parent fun controllers => controllers ++ [controller]
  | .controllerRemoved parent _ controller => r.control parent fun controllers => controllers.erase controller
  | .created fqdn parent _ owner           => { r with records := r.records.set fqdn (parent, owner) }
  | .transfer fqdn _ newOwner =>
      match r.records fqdn with
      | some (parent, _) => { r with records := r.records.set fqdn (parent, newOwner) }
      | none             => r
  | .deleted fqdn _ => { r with records := r.records.remove fqdn }
  | .revoked fqdn _ => { r with records := r.records.remove fqdn }

/-- The picture of a state. -/
def roll (s : State) : Roll := ⟨s.parent, s.subdomain.view fun record => (record.parent, record.owner)⟩

end XlmNs.Subdomain
