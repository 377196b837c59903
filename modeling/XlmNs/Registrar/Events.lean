import XlmNs.Common.Upgrade
import XlmNs.Registrar.Contract
import XlmNs.Soroban.EventLog

/-!
# `Registrar.Events` — what the registrar publishes

`events s t` is what the invocation `t` publishes if it commits in `s`. The event of an exceeded rate limit, `limit`,
is published on the way to an error and discarded with everything else: no log holds one.

`Books` is the picture an accountant keeps: the records sold, the treasury and the two counters, and the settings the
administration publishes.
-/

namespace XlmNs.Registrar

open Soroban

/-- What the registrar publishes. -/
inductive Event
  | upgraded (oldVersion newVersion : UInt32) (admin : Address)
  | reservedAdded (label : Bytes)
  | reservedSkipped (label : Bytes)
  | reg (label : Bytes) (owner : Address) (feeStroops expiresAt gracePeriodEndsAt : UInt64)
  | renewed (name : Bytes) (caller : Address) (paymentStroops expiresAt gracePeriodEndsAt : UInt64)
  | grrenew (name : Bytes) (caller : Address) (paymentStroops expiresAt gracePeriodEndsAt : UInt64)
  | rate (windowSizeSeconds maxRegistrationsPerWindow : UInt64)
  | grace (gracePeriodSeconds : UInt64)
  | wlist (address : Address)
  | unwlist (address : Address)
deriving DecidableEq, Repr

/-- What becomes of a valid label to reserve. -/
def reserveEvent (s : State) (label : Bytes) : Event :=
  if (s.reserved label).getD false then .reservedSkipped label else .reservedAdded label

/-- The loop of `load_reserved_manifest`. -/
def loadEvents (s : State) : List Bytes → List Event
  | [] => []
  | label :: labels =>
      match validateLabelSoroban label with
      | .ok _    => reserveEvent s label :: loadEvents (addReserved s label) labels
      | .error _ => .reservedSkipped label :: loadEvents s labels

/-- The event of a renewal, with the bounds it stores: they are counted from `base`. -/
def renewalEvents (event : UInt64 → UInt64 → Event) (s : State) (name : Bytes) (years : UInt64)
    (base : RegistrationRecord → UInt64) : List Event :=
  match s.registration name with
  | some record =>
      let expiresAt := expiryFromNow (base record) years
      [event expiresAt (computeGracePeriodEndsAt s expiresAt)]
  | none => []

/-- What an invocation publishes if it commits. -/
def events (s : State) (t : Tx Call) : List Event :=
  match t.call with
  | .initializeContract .. => []
  | .upgrade migrationData =>
      match s.admin with
      | some admin => [.upgraded (getVersion s.contractVersion) (decodeTargetVersion migrationData) admin]
      | none       => []
  | .reserveLabel label => [reserveEvent s label]
  | .loadReservedManifest labels => loadEvents s labels
  | .register label owner years _ nowUnix =>
      let quote := buildQuote s label years nowUnix
      [.reg label owner quote.feeStroops quote.expiryUnix quote.gracePeriodEndsAt]
  | .renew name caller years paymentStroops nowUnix =>
      renewalEvents (.renewed name caller paymentStroops) s name years fun record => baseTime record nowUnix
  | .extendDuringGrace name caller years paymentStroops nowUnix =>
      renewalEvents (.grrenew name caller paymentStroops) s name years fun _ => nowUnix
  | .setRateLimitConfig windowSizeSeconds maxRegistrationsPerWindow => [.rate windowSizeSeconds maxRegistrationsPerWindow]
  | .setGracePeriod gracePeriodSeconds => [.grace gracePeriodSeconds]
  | .whitelistAddress address => [.wlist address]
  | .removeWhitelistAddress address => [.unwlist address]

/-- The log of a run. -/
def eventLog {ω : Type} (out : Outside ω) (self : Address) (sw : State × ω) (ts : List (Tx Call)) : List Event :=
  published (step out self) (fun sw t => events sw.1 t) sw ts

/-! ## An accountant -/

/-- A name as it was sold and renewed. -/
structure Sold where
  owner             : Address
  expiresAt         : UInt64
  gracePeriodEndsAt : UInt64
  feePaid           : UInt64
deriving DecidableEq, Repr

/-- What can be told from the events. -/
structure Books where
  sold               : Store Bytes Sold
  metrics            : RegistrarMetrics
  reserved           : Bytes → Bool
  rateLimitConfig    : RateLimitConfig
  gracePeriodSeconds : UInt64
  whitelisted        : Address → Bool

/-- Book a sale. -/
def Books.sell (b : Books) (label : Bytes) (owner : Address) (feeStroops expiresAt gracePeriodEndsAt : UInt64) : Books :=
  match buildXlmName label with
  | .ok name =>
      { b with
        sold    := b.sold.set name ⟨owner, expiresAt, gracePeriodEndsAt, feeStroops⟩
        metrics := { b.metrics with
          treasuryBalance    := saturatingAdd b.metrics.treasuryBalance feeStroops
          totalRegistrations := saturatingAdd b.metrics.totalRegistrations 1 } }
  | .error _ => b

/-- Book a renewal: it names the payer, and the name keeps its owner. -/
def Books.renew (b : Books) (name : Bytes) (paymentStroops expiresAt gracePeriodEndsAt : UInt64) : Books :=
  { b with
    sold    := Function.update b.sold name ((b.sold name).map fun sold =>
      ⟨sold.owner, expiresAt, gracePeriodEndsAt, saturatingAdd sold.feePaid paymentStroops⟩)
    metrics := { b.metrics with
      treasuryBalance := saturatingAdd b.metrics.treasuryBalance paymentStroops
      totalRenewals   := saturatingAdd b.metrics.totalRenewals 1 } }

/-- Apply an event. -/
def Books.apply (b : Books) : Event → Books
  | .reg label owner feeStroops expiresAt gracePeriodEndsAt => b.sell label owner feeStroops expiresAt gracePeriodEndsAt
  | .renewed name _ paymentStroops expiresAt gracePeriodEndsAt => b.renew name paymentStroops expiresAt gracePeriodEndsAt
  | .grrenew name _ paymentStroops expiresAt gracePeriodEndsAt => b.renew name paymentStroops expiresAt gracePeriodEndsAt
  | .reservedAdded label       => { b with reserved := Function.update b.reserved label true }
  | .rate size max             => { b with rateLimitConfig := ⟨size, max⟩ }
  | .grace gracePeriodSeconds  => { b with gracePeriodSeconds := gracePeriodSeconds }
  | .wlist address             => { b with whitelisted := Function.update b.whitelisted address true }
  | .unwlist address           => { b with whitelisted := Function.update b.whitelisted address false }
  | .upgraded .. | .reservedSkipped .. => b

/-- What the books have of a record. -/
def RegistrationRecord.sold (record : RegistrationRecord) : Sold :=
  ⟨record.owner, record.expiresAt, record.gracePeriodEndsAt, record.feePaid⟩

/-- The picture of a state. -/
def books (s : State) : Books where
  sold               := s.registration.view RegistrationRecord.sold
  metrics            := feeMetrics s
  reserved           := fun label => (s.reserved label).getD false
  rateLimitConfig    := getRateLimitConfig s
  gracePeriodSeconds := getGracePeriodSeconds s
  whitelisted        := isWhitelisted s

end XlmNs.Registrar
