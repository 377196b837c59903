import XlmNs.Cli.Dates
import XlmNs.Registry.Contract

/-!
# `Cli.Statuses` — what the command line says about a registration

Three commands tell a user whether a name is active, in its grace period or free again, each with comparisons of its own:
the portfolio export (`export.rs`), `availability` (`commands/quote.rs`) and `watch` (`commands/watch.rs`). Below each, what
its words mean in the states of `registry.name_state`.
-/

namespace XlmNs.Sdk

/-! ## The records of the client library (`xlm-ns-sdk/src/types.rs`) -/

/-- The entry as the client library has it. -/
structure RegistryEntry where
  name              : String
  owner             : String
  resolver          : Option String
  targetAddress     : Option String
  metadataUri       : Option String
  ttlSeconds        : UInt64
  registeredAt      : UInt64
  expiresAt         : UInt64
  gracePeriodEndsAt : UInt64
  transferCount     : UInt32
deriving DecidableEq, Repr

/-- What the client library answers about a name. -/
structure ResolutionResult where
  name       : String
  address    : Option String
  resolver   : Option String
  expiresAt  : Option UInt64
  isWildcard : Bool
deriving DecidableEq, Repr

end XlmNs.Sdk

namespace XlmNs.Cli

open Soroban
open Sdk (ResolutionResult)

/-! ## The portfolio export -/

/-- A line of an export. -/
structure PortfolioRecord where
  name              : String
  owner             : String
  resolver          : String
  targetAddress     : String
  registeredAt      : Int64
  expiresAt         : Int64
  gracePeriodEndsAt : Int64
  status            : String
deriving DecidableEq

/-- The status of an entry, by its stored grace period. -/
def recordStatus (record : Sdk.RegistryEntry) (nowUnix : Int64) : String :=
  let expiresAt := record.expiresAt.toInt64
  let gracePeriodEndsAt := record.gracePeriodEndsAt.toInt64
  if nowUnix ≤ expiresAt then "active"
  else if nowUnix ≤ gracePeriodEndsAt then "grace"
  else "expired"

/-- The line about an entry. -/
def PortfolioRecord.fromNameRecord (record : Sdk.RegistryEntry) (nowUnix : Int64) : PortfolioRecord where
  name              := record.name
  owner             := record.owner
  resolver          := record.resolver.getD ""
  targetAddress     := record.targetAddress.getD ""
  registeredAt      := record.registeredAt.toInt64
  expiresAt         := record.expiresAt.toInt64
  gracePeriodEndsAt := record.gracePeriodEndsAt.toInt64
  status            := recordStatus record nowUnix

/-- The record `portfolio` exports at a reading of the clock. -/
def portfolioRecord (clock : SystemTime) (record : Sdk.RegistryEntry) : PortfolioRecord :=
  PortfolioRecord.fromNameRecord record clock.asSecs.toInt64

/-- The state a status names. -/
def PortfolioRecord.state (record : PortfolioRecord) : Option NameState :=
  if record.status = "active" then some .active
  else if record.status = "grace" then some .gracePeriod
  else if record.status = "expired" then some .claimable
  else none

/-! ## `availability` -/

/-- What the command prints, and writes to JSON. -/
structure Availability where
  status    : String
  available : Bool
deriving DecidableEq, Repr

/-- `GRACE_SECONDS`: thirty days. -/
def graceSeconds : UInt64 := 30 * 24 * 3600

/-- `run_availability` once the lookup has succeeded; `none` where it panics. -/
def availability (overflowChecks : Bool) (clock : SystemTime) (found : Option ResolutionResult) : Option Availability :=
  match found with
  | some record =>
      match record.expiresAt with
      | some exp =>
          let mockNow := clock.asSecs
          if exp ≤ mockNow then some ⟨"claimable (expired, past grace period)", true⟩
          else
            match plainAdd overflowChecks mockNow graceSeconds with
            | none => none
            | some graceStart =>
                if exp ≤ graceStart then some ⟨"grace-period (expired, in grace window)", false⟩
                else some ⟨"active", false⟩
      | none => some ⟨"active (no expiry set)", false⟩
  | none => some ⟨"available", true⟩

/-- The state a status names, if the flag goes with it. -/
def Availability.state (a : Availability) : Option NameState :=
  if a = ⟨"active", false⟩ then some .active
  else if a = ⟨"grace-period (expired, in grace window)", false⟩ then some .gracePeriod
  else if a = ⟨"claimable (expired, past grace period)", true⟩ then some .claimable
  else none

/-! ## `watch` -/

/-- What `watch` says about a name. -/
inductive ExpiryStatus
  | safe (expiry : DateTime)
  | expiringSoon (expiry : DateTime)
  | inGracePeriod (expiry : DateTime)
  | expired
  | notRegistered
deriving DecidableEq, Repr

/-- `ExpiryStatus::from_expires_at`; `none` where it panics. -/
def ExpiryStatus.fromExpiresAt (calendar : Calendar) (clock : SystemTime) (expiresAt : Option DateTime) :
    Option ExpiryStatus :=
  match calendar.utcNow clock with
  | none => none
  | some now =>
      match expiresAt with
      | some expiry =>
          match calendar.addDays expiry 90 with
          | none => none
          | some graceEnd =>
              if now.After graceEnd then some .expired
              else if now.After expiry then some (.inGracePeriod expiry)
              else
                match calendar.addDays expiry (-30) with
                | none => none
                | some soon =>
                    if now.After soon then some (.expiringSoon expiry)
                    else some (.safe expiry)
      | none => some .notRegistered

/-- The status `watch check` finds for a name; an expiry that is no date counts as none. -/
def watchStatus (calendar : Calendar) (clock : SystemTime) (found : Option ResolutionResult) : Option ExpiryStatus :=
  let expiresAt := found.bind fun record => record.expiresAt
  ExpiryStatus.fromExpiresAt calendar clock
    (expiresAt.bind fun ts => calendar.fromTimestamp ts.toInt64 0 valid_zero)

/-- The state a status stands for: `Expired` is printed as "Expired and available". -/
def ExpiryStatus.state : ExpiryStatus → NameState
  | .safe _ | .expiringSoon _ => .active
  | .inGracePeriod _          => .gracePeriod
  | .expired                  => .claimable
  | .notRegistered            => .missing

end XlmNs.Cli
