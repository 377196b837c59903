import XlmNs.Common.Names
import XlmNs.Common.Upgrade
import XlmNs.Soroban.Store

/-!
# `Registrar.Contract` — the registrar contract (`contracts/registrar/src/lib.rs`)

The registrar sells registrations. It keeps its own record of every name it sold (owner, lifecycle bounds, fee),
counts registrations per address for the rate limit, and forwards each sale and renewal to the registry it was
initialised with.

What that registry does with a call is a parameter (`Outside`); `System.RegistrarRegistry` puts the real one
there. Events are in `Registrar.Events`. The wasm hash of an upgrade is not modelled, nor are the read-only views no
modelled function uses.
-/

namespace XlmNs.Registrar

open Soroban

/-- What an entrypoint of the registrar may refuse with. -/
inductive RegistrarError
  | insufficientFee
  | notFound
  | notRenewable
  | alreadyRegistered
  | reserved
  | unauthorized
  | validation
  | registrationClaimable
  | notInitialized
  | alreadyInitialized
  | rateLimitExceeded
  | upgradeFailed
  | quoteExpired
deriving DecidableEq, Repr

/-- What a fee is made of. -/
structure PricingBreakdown where
  annualFeeStroops : UInt64
  durationYears    : UInt64
  premiumStroops   : UInt64
deriving DecidableEq, Repr

/-- The offer for a registration. -/
structure RegistrationQuote where
  feeStroops        : UInt64
  expiryUnix        : UInt64
  gracePeriodEndsAt : UInt64
  validUntil        : UInt64
  pricing           : PricingBreakdown
deriving DecidableEq, Repr

/-- The offer for a renewal. -/
structure RenewalQuote where
  feeStroops         : UInt64
  currentExpiryUnix  : UInt64
  extendedExpiryUnix : UInt64
  gracePeriodEndsAt  : UInt64
  pricing            : PricingBreakdown
deriving DecidableEq, Repr

/-- What the registrar has taken in, and for how many sales. -/
structure RegistrarMetrics where
  treasuryBalance    : UInt64
  totalRegistrations : UInt64
  totalRenewals      : UInt64
deriving DecidableEq, Repr

/-- What the registrar keeps of a name it has sold. -/
structure RegistrationRecord where
  name              : Bytes
  owner             : Address
  registeredAt      : UInt64
  expiresAt         : UInt64
  gracePeriodEndsAt : UInt64
  feePaid           : UInt64
  renewedAt         : UInt64
deriving DecidableEq, Repr

/-- The length of a window and how many registrations it admits. -/
structure RateLimitConfig where
  windowSizeSeconds         : UInt64
  maxRegistrationsPerWindow : UInt64
deriving DecidableEq, Repr

/-- The registrar's storage, one field per `DataKey`. -/
structure State where
  registration       : Store Bytes RegistrationRecord
  reserved           : Store Bytes Bool
  treasury           : Option UInt64
  registry           : Option Address
  registrationCount  : Option UInt64
  renewalCount       : Option UInt64
  rateLimitConfig    : Option RateLimitConfig
  gracePeriodSeconds : Option UInt64
  whitelistedAddress : Store Address Bool
  registrationWindow : Store (Address × UInt64) UInt64
  admin              : Option Address
  contractVersion    : Option UInt32

/-- A freshly deployed registrar. -/
def State.empty : State where
  registration       := fun _ => none
  reserved           := fun _ => none
  treasury           := none
  registry           := none
  registrationCount  := none
  renewalCount       := none
  rateLimitConfig    := none
  gracePeriodSeconds := none
  whitelistedAddress := fun _ => none
  registrationWindow := fun _ => none
  admin              := none
  contractVersion    := none

/-- The registry calls the registrar makes. -/
inductive RegistryCall
  | register (name : Bytes) (owner : Address) (targetAddress metadataUri : Option Bytes)
      (nowUnix expiresAt gracePeriodEndsAt : UInt64)
  | renew (name : Bytes) (caller : Address) (expiresAt gracePeriodEndsAt nowUnix : UInt64)
deriving DecidableEq, Repr

/-- What the registrar relies on outside its own code; `none` is a failing call. -/
structure Outside (ω : Type) where
  /-- `env.invoke_contract::<()>(&registry, …)` -/
  registry : Env → Address → RegistryCall → ω → Option ω

variable {ω : Type}

/-- How an entrypoint of the registrar ends. -/
abbrev Result (α : Type) := Outcome RegistrarError α

/-- `MIN_GRACE_PERIOD_SECONDS`: a day. -/
def minGracePeriodSeconds : UInt64 := 86400

/-- `QUOTE_VALIDITY_SECONDS`: five minutes. -/
def quoteValiditySeconds : UInt64 := 300

/-- `MAX_GRACE_PERIOD_SECONDS`: a year. -/
def maxGracePeriodSeconds : UInt64 := 31536000

/-- `DEFAULT_RATE_LIMIT_WINDOW_SECONDS`: a day. -/
def defaultRateLimitWindowSeconds : UInt64 := 86400

/-- `DEFAULT_MAX_REGISTRATIONS_PER_WINDOW` -/
def defaultMaxRegistrationsPerWindow : UInt64 := 5

/-- The limits before an admin sets others. -/
def defaultRateLimitConfig : RateLimitConfig :=
  ⟨defaultRateLimitWindowSeconds, defaultMaxRegistrationsPerWindow⟩

/-! ## Pricing and quotes -/

/-- The yearly fee in stroops: short labels cost more. -/
def priceForLabelLength (length : Nat) : UInt64 :=
  if length ≤ 3 then 1000000000 else if length ≤ 6 then 250000000 else 100000000

/-- The configured grace period, or the default. -/
def getGracePeriodSeconds (s : State) : UInt64 :=
  s.gracePeriodSeconds.getD XlmNs.gracePeriodSeconds

/-- Where the grace period of an expiry ends as configured now. -/
def computeGracePeriodEndsAt (s : State) (expiryUnix : UInt64) : UInt64 :=
  gracePeriodEndsAtWithDuration expiryUnix (getGracePeriodSeconds s)

/-- The offer for a label, from now on. -/
def buildQuote (s : State) (label : Bytes) (years nowUnix : UInt64) : RegistrationQuote :=
  let annualFee := priceForLabelLength label.length
  let expiryUnix := expiryFromNow nowUnix years
  { feeStroops        := saturatingMul annualFee years
    expiryUnix        := expiryUnix
    gracePeriodEndsAt := computeGracePeriodEndsAt s expiryUnix
    validUntil        := saturatingAdd nowUnix quoteValiditySeconds
    pricing           := ⟨annualFee, years, 0⟩ }

/-- A record may be renewed until its grace period is over. -/
def canRenew (gracePeriodEndsAt nowUnix : UInt64) : Result Bool := do
  require (nowUnix ≤ gracePeriodEndsAt) .registrationClaimable
  return true

/-! ## Rate limit -/

/-- The configured limits, or the default ones. -/
def getRateLimitConfig (s : State) : RateLimitConfig := s.rateLimitConfig.getD defaultRateLimitConfig

/-- The rate limit does not bind the address. -/
def isWhitelisted (s : State) (address : Address) : Bool := (s.whitelistedAddress address).getD false

/-- The counter a registration at `nowUnix` is checked against and counted in. -/
def windowKey (s : State) (address : Address) (nowUnix : UInt64) : Address × UInt64 :=
  (address, saturatingSub nowUnix (getRateLimitConfig s).windowSizeSeconds)

/-- The registrations counted for an address in the window of `nowUnix`. -/
def getRegistrationsInWindow (s : State) (address : Address) (nowUnix : UInt64) : UInt64 :=
  (s.registrationWindow (windowKey s address nowUnix)).getD 0

/-- The address may register once more in this window. -/
def checkRateLimit (s : State) (address : Address) (nowUnix : UInt64) : Result Unit :=
  if isWhitelisted s address then return ()
  else require (getRegistrationsInWindow s address nowUnix
    < (getRateLimitConfig s).maxRegistrationsPerWindow) .rateLimitExceeded

/-- Count a registration in the window. -/
def recordRegistration (s : State) (address : Address) (nowUnix : UInt64) : State :=
  let count := getRegistrationsInWindow s address nowUnix
  { s with
    registrationWindow := s.registrationWindow.set (windowKey s address nowUnix) (saturatingAdd count 1) }

/-! ## Administration -/

/-- `initialize` -/
def initializeContract (s : State) (registry admin : Address) : Result State := do
  require (s.registry = none) .alreadyInitialized
  return { s with
    registry           := some registry
    admin              := some admin
    contractVersion    := some XlmNs.contractVersion
    rateLimitConfig    := some (getRateLimitConfig s)
    gracePeriodSeconds := some (getGracePeriodSeconds s) }

/-- A registrar just after `initialize`. -/
def State.initialized (registry admin : Address) : State :=
  { State.empty with
    registry           := some registry
    admin              := some admin
    contractVersion    := some XlmNs.contractVersion
    rateLimitConfig    := some defaultRateLimitConfig
    gracePeriodSeconds := some XlmNs.gracePeriodSeconds }

theorem initializeContract_empty (registry admin : Address) :
    initializeContract State.empty registry admin = .ok (State.initialized registry admin) := rfl

/-- The model follows `upgrade` up to the replacement of the code; every `migrate` step is a no-op. -/
def upgrade (env : Env) (s : State) (migrationData : Bytes) : Result State :=
  upgradeStoring (fun version => { s with contractVersion := some version }) env s.admin .upgradeFailed
    s.contractVersion migrationData

/-- `admin.require_auth()` of the governance functions. -/
def requireAdmin (env : Env) (s : State) : Result Unit := do
  let admin ← okOr s.admin .notInitialized
  requireAuth env admin

/-- `if …get::<_, bool>(&key).unwrap_or(false) { skipped } else { set(&key, &true) }` -/
def addReserved (s : State) (label : Bytes) : State :=
  if (s.reserved label).getD false then s else { s with reserved := s.reserved.set label true }

/-- The admin takes a label off sale. -/
def reserveLabel (env : Env) (s : State) (label : Bytes) : Result State := do
  requireAdmin env s
  mapErr (validateLabelSoroban label) .validation
  return addReserved s label

/-- The loop of `load_reserved_manifest`: the storage and the count of labels added. -/
def loadReserved (s : State) (addedCount : UInt32) : List Bytes → State × UInt32
  | [] => (s, addedCount)
  | label :: labels =>
      match validateLabelSoroban label with
      | .ok _ =>
          let addedCount := if (s.reserved label).getD false then addedCount else addedCount + 1
          loadReserved (addReserved s label) addedCount labels
      -- an invalid label is skipped, and the rest still counts
      | .error _ => loadReserved s addedCount labels

/-- The admin takes a list of labels off sale, and learns how many are new. -/
def loadReservedManifest (env : Env) (s : State) (labels : List Bytes) : Result (State × UInt32) := do
  requireAdmin env s
  return loadReserved s 0 labels

/-- The admin sets the limits. -/
def setRateLimitConfig (env : Env) (s : State) (windowSizeSeconds maxRegistrationsPerWindow : UInt64) :
    Result State := do
  requireAdmin env s
  return { s with rateLimitConfig := some ⟨windowSizeSeconds, maxRegistrationsPerWindow⟩ }

/-- The admin sets the grace period, from a day to a year. -/
def setGracePeriod (env : Env) (s : State) (gracePeriodSeconds : UInt64) : Result State := do
  requireAdmin env s
  require (minGracePeriodSeconds ≤ gracePeriodSeconds ∧ gracePeriodSeconds ≤ maxGracePeriodSeconds)
    .validation
  return { s with gracePeriodSeconds := some gracePeriodSeconds }

/-- The admin exempts an address from the limits. -/
def whitelistAddress (env : Env) (s : State) (address : Address) : Result State := do
  requireAdmin env s
  return { s with whitelistedAddress := s.whitelistedAddress.set address true }

/-- The admin ends an exemption. -/
def removeWhitelistAddress (env : Env) (s : State) (address : Address) : Result State := do
  requireAdmin env s
  return { s with whitelistedAddress := s.whitelistedAddress.remove address }

/-! ## Sales -/

/-- Write the record of a name. -/
def putRegistration (s : State) (name : Bytes) (record : RegistrationRecord) : State :=
  { s with registration := s.registration.set name record }

/-- Treasury and registration count after a sale. -/
def creditRegistration (s : State) (feeStroops : UInt64) : State :=
  { s with
    treasury          := some (saturatingAdd (s.treasury.getD 0) feeStroops)
    registrationCount := some (saturatingAdd (s.registrationCount.getD 0) 1) }

/-- Treasury and renewal count after a renewal. -/
def creditRenewal (s : State) (paymentStroops : UInt64) : State :=
  { s with
    treasury     := some (saturatingAdd (s.treasury.getD 0) paymentStroops)
    renewalCount := some (saturatingAdd (s.renewalCount.getD 0) 1) }

/-- `env.invoke_contract` on the configured registry. -/
def callRegistry (out : Outside ω) (self : Address) (env : Env) (s : State) (call : RegistryCall)
    (w : ω) : Result ω := do
  let registry ← okOr s.registry .notInitialized
  invoke (out.registry (env.callFrom self) registry call w)

/-- The record `register` writes. -/
def soldRecord (name : Bytes) (owner : Address) (quote : RegistrationQuote) (nowUnix : UInt64) :
    RegistrationRecord where
  name              := name
  owner             := owner
  registeredAt      := nowUnix
  expiresAt         := quote.expiryUnix
  gracePeriodEndsAt := quote.gracePeriodEndsAt
  feePaid           := quote.feeStroops
  renewedAt         := nowUnix

/-- Sell a free or claimable label. -/
def register (out : Outside ω) (self : Address) (env : Env) (s : State) (w : ω) (label : Bytes)
    (owner : Address) (years maxPrice nowUnix : UInt64) : Result (State × ω) := do
  requireAuth env owner
  mapErr (validateLabelSoroban label) .validation
  -- both quote checks compare `nowUnix` with itself plus the validity: the source never reads the clock
  require (nowUnix ≤ saturatingAdd nowUnix quoteValiditySeconds) .quoteExpired
  mapErr (validateRegistrationYearsSoroban years) .validation
  require ((s.reserved label).getD false = false) .reserved
  checkRateLimit s owner nowUnix
  let quote := buildQuote s label years nowUnix
  require (quote.feeStroops ≤ maxPrice) .insufficientFee
  require (nowUnix ≤ quote.validUntil) .quoteExpired
  let name ← mapErr (buildXlmName label) .validation
  -- a record past its grace period at `now_unix` is simply overwritten
  require (∀ existing ∈ s.registration name, existing.gracePeriodEndsAt < nowUnix) .alreadyRegistered
  let record := soldRecord name owner quote nowUnix
  let s := putRegistration s name record
  let s := recordRegistration s owner nowUnix
  let s := creditRegistration s quote.feeStroops
  let w ← callRegistry out self env s
    (.register name owner none none nowUnix record.expiresAt record.gracePeriodEndsAt) w
  return (s, w)

/-- The time a renewal is counted from: the later of the current expiry and `nowUnix`. -/
def baseTime (record : RegistrationRecord) (nowUnix : UInt64) : UInt64 :=
  if nowUnix < record.expiresAt then record.expiresAt else nowUnix

/-- The record `renew` and `extend_during_grace` write, for an expiry already computed. -/
def renewedRecord (s : State) (record : RegistrationRecord) (expiresAt paymentStroops nowUnix : UInt64) :
    RegistrationRecord :=
  { record with
    expiresAt         := expiresAt
    gracePeriodEndsAt := computeGracePeriodEndsAt s expiresAt
    renewedAt         := nowUnix
    feePaid           := saturatingAdd record.feePaid paymentStroops }

/-- The common tail of `renew` and `extend_during_grace`: store the record, count the payment, and pass the
    new bounds on to the registry. -/
def commitRenewal (out : Outside ω) (self : Address) (env : Env) (s : State) (w : ω) (name : Bytes)
    (caller : Address) (record : RegistrationRecord) (paymentStroops nowUnix : UInt64) :
    Result (State × ω) := do
  let s := putRegistration s name record
  let s := creditRenewal s paymentStroops
  let w ← callRegistry out self env s
    (.renew name caller record.expiresAt record.gracePeriodEndsAt nowUnix) w
  return (s, w)

/-- Sell the owner more years, until the grace period is over. -/
def renew (out : Outside ω) (self : Address) (env : Env) (s : State) (w : ω) (name : Bytes)
    (caller : Address) (years paymentStroops nowUnix : UInt64) : Result (State × ω) := do
  requireAuth env caller
  let label ← mapErr (extractLabelSoroban name) .validation
  mapErr (validateRegistrationYearsSoroban years) .validation
  let record ← okOr (s.registration name) .notFound
  require (record.owner = caller) .unauthorized
  let renewable ← canRenew record.gracePeriodEndsAt nowUnix
  require (renewable = true) .notRenewable
  let feeDue := saturatingMul (priceForLabelLength label.length) years
  require (feeDue ≤ paymentStroops) .insufficientFee
  let expiresAt := expiryFromNow (baseTime record nowUnix) years
  commitRenewal out self env s w name caller
    (renewedRecord s record expiresAt paymentStroops nowUnix) paymentStroops nowUnix

/-- The same between the expiry and the end of the grace period only. -/
def extendDuringGrace (out : Outside ω) (self : Address) (env : Env) (s : State) (w : ω) (name : Bytes)
    (caller : Address) (years paymentStroops nowUnix : UInt64) : Result (State × ω) := do
  requireAuth env caller
  let label ← mapErr (extractLabelSoroban name) .validation
  mapErr (validateRegistrationYearsSoroban years) .validation
  let record ← okOr (s.registration name) .notFound
  require (record.owner = caller) .unauthorized
  -- unlike `renew`, refused before the expiry
  require (record.expiresAt < nowUnix) .notRenewable
  require (nowUnix ≤ record.gracePeriodEndsAt) .registrationClaimable
  let feeDue := saturatingMul (priceForLabelLength label.length) years
  require (feeDue ≤ paymentStroops) .insufficientFee
  let expiresAt := expiryFromNow nowUnix years
  commitRenewal out self env s w name caller
    (renewedRecord s record expiresAt paymentStroops nowUnix) paymentStroops nowUnix

/-! ## Quotes -/

/-- What registering a label would cost now. -/
def quoteRegistration (s : State) (label : Bytes) (years nowUnix : UInt64) : Result RegistrationQuote := do
  mapErr (validateLabelSoroban label) .validation
  mapErr (validateRegistrationYearsSoroban years) .validation
  return buildQuote s label years nowUnix

/-- What renewing a name would cost now. -/
def quoteRenewal (s : State) (name : Bytes) (years nowUnix : UInt64) : Result RenewalQuote := do
  let label ← mapErr (extractLabelSoroban name) .validation
  mapErr (validateRegistrationYearsSoroban years) .validation
  let record ← okOr (s.registration name) .notFound
  let extendedExpiryUnix := expiryFromNow (baseTime record nowUnix) years
  let annualFee := priceForLabelLength label.length
  return {
    feeStroops         := saturatingMul annualFee years
    currentExpiryUnix  := record.expiresAt
    extendedExpiryUnix := extendedExpiryUnix
    gracePeriodEndsAt  := computeGracePeriodEndsAt s extendedExpiryUnix
    pricing            := ⟨annualFee, years, 0⟩ }

/-! ## Availability -/

/-- What a buyer is told about a label. -/
inductive RegistrationStatus
  | unavailable
  | active
  | gracePeriod
  | claimable
  | reserved
deriving DecidableEq, Repr

/-- The reserved list is not asked here. -/
def isAvailable (s : State) (label : Bytes) (nowUnix : UInt64) : Bool :=
  match buildXlmName label with
  | .error _ => false
  | .ok name => ((s.registration name).map (fun record => decide (record.gracePeriodEndsAt < nowUnix))).getD true

/-- A reserved label is so whatever its record says. -/
def registrationStatus (s : State) (label : Bytes) (nowUnix : UInt64) : RegistrationStatus :=
  if (s.reserved label).getD false then .reserved
  else
    match buildXlmName label with
    | .error _ => .unavailable
    | .ok name =>
        match s.registration name with
        | none => .unavailable
        | some record =>
            if nowUnix ≤ record.expiresAt then .active
            else if nowUnix ≤ record.gracePeriodEndsAt then .gracePeriod
            else .claimable

/-! ## Metrics -/

/-- The fees taken in so far. -/
def treasuryBalance (s : State) : UInt64 := s.treasury.getD 0

/-- `fee_metrics`, and under another name `accounting_report` -/
def feeMetrics (s : State) : RegistrarMetrics where
  treasuryBalance    := s.treasury.getD 0
  totalRegistrations := s.registrationCount.getD 0
  totalRenewals      := s.renewalCount.getD 0

/-! ## Dispatch -/

/-- The state-changing entrypoints with their arguments. -/
inductive Call
  | initializeContract (registry admin : Address)
  | upgrade (migrationData : Bytes)
  | reserveLabel (label : Bytes)
  | loadReservedManifest (labels : List Bytes)
  | register (label : Bytes) (owner : Address) (years maxPrice nowUnix : UInt64)
  | renew (name : Bytes) (caller : Address) (years paymentStroops nowUnix : UInt64)
  | setRateLimitConfig (windowSizeSeconds maxRegistrationsPerWindow : UInt64)
  | setGracePeriod (gracePeriodSeconds : UInt64)
  | extendDuringGrace (name : Bytes) (caller : Address) (years paymentStroops nowUnix : UInt64)
  | whitelistAddress (address : Address)
  | removeWhitelistAddress (address : Address)
deriving DecidableEq, Repr

/-- One invocation of the registrar: its storage and the outside world after it. -/
def step (out : Outside ω) (self : Address) (sw : State × ω) (t : Tx Call) : Result (State × ω) :=
  let (s, w) := sw
  match t.call with
  | .initializeContract registry admin => return (← initializeContract s registry admin, w)
  | .upgrade migrationData => return (← upgrade t.env s migrationData, w)
  | .reserveLabel label => return (← reserveLabel t.env s label, w)
  | .loadReservedManifest labels => return ((← loadReservedManifest t.env s labels).1, w)
  | .register label owner years maxPrice nowUnix =>
      register out self t.env s w label owner years maxPrice nowUnix
  | .renew name caller years paymentStroops nowUnix =>
      renew out self t.env s w name caller years paymentStroops nowUnix
  | .setRateLimitConfig windowSizeSeconds maxRegistrationsPerWindow =>
      return (← setRateLimitConfig t.env s windowSizeSeconds maxRegistrationsPerWindow, w)
  | .setGracePeriod gracePeriodSeconds => return (← setGracePeriod t.env s gracePeriodSeconds, w)
  | .extendDuringGrace name caller years paymentStroops nowUnix =>
      extendDuringGrace out self t.env s w name caller years paymentStroops nowUnix
  | .whitelistAddress address => return (← whitelistAddress t.env s address, w)
  | .removeWhitelistAddress address => return (← removeWhitelistAddress t.env s address, w)

end XlmNs.Registrar
