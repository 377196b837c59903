import XlmNs.Common.Time
import XlmNs.Sdk.Client

/-!
# `Sdk.Writes` — quotes and writes of the client library (`packages/xlm-ns-sdk/src/client.rs`)

Every writing call of the client, as the source has it: in which order it checks its arguments and the network, and the
submission it returns. `Write` lists the calls and `XlmNsClient.submit` makes them.
-/

namespace XlmNs.Sdk

open Soroban

variable {ω : Type} (out : Outside ω) (client : XlmNsClient)

/-! ## Quotes -/

/-- What a fee is made of. -/
structure FeeBreakdown where
  baseFee    : UInt64
  premiumFee : UInt64
  networkFee : UInt64
deriving DecidableEq, Repr

/-- The sum, or the end of `u64`. -/
def FeeBreakdown.total (fees : FeeBreakdown) : UInt64 :=
  saturatingAdd (saturatingAdd fees.baseFee fees.premiumFee) fees.networkFee

/-- The offer for a registration, as the client computes it. -/
structure RegistrationQuote where
  label             : String
  durationYears     : UInt32
  feeBreakdown      : FeeBreakdown
  totalFee          : UInt64
  feeCurrency       : String
  expiresAt         : UInt64
  gracePeriodEndsAt : UInt64
  quotedAt          : UInt64
  contractId        : Option String
deriving DecidableEq, Repr

/-- What `register` reports. -/
structure RegistrationReceipt where
  name          : String
  owner         : String
  durationYears : UInt32
  expiresAt     : UInt64
  feePaid       : UInt64
  submission    : TransactionSubmission
deriving DecidableEq, Repr

/-- What `renew` reports. -/
structure RenewalReceipt where
  name            : String
  additionalYears : UInt32
  newExpiry       : UInt64
  feePaid         : UInt64
  submission      : TransactionSubmission
deriving DecidableEq, Repr

/-- What a simulated write would cost, and who would have to sign. -/
structure SimulationResult where
  feeEstimate   : UInt64
  authAddresses : List String
  error         : Option String
  success       : Bool
deriving DecidableEq, Repr

/-- `SECONDS_PER_YEAR`: 365 days. -/
def secondsPerYear : UInt64 := 31536000

/-- `BASE_FEE_PER_YEAR` -/
def baseFeePerYear : UInt64 := 10

/-- `NETWORK_FEE` -/
def networkFee : UInt64 := 1

/-- "Mirrors the registrar contract's `price_for_label_length`". -/
def priceForLabelLength (length : Nat) : UInt64 :=
  if length ≤ 3 then 1000000000 else if length ≤ 6 then 250000000 else 100000000

/-- The quote the code computes from a clock. -/
def buildQuote (label : String) (durationYears : UInt32) (now : UInt64) (contractId : String) : RegistrationQuote :=
  let years := durationYears.toUInt64
  let annualFee := priceForLabelLength (byteLength (trim label))
  let feeBreakdown : FeeBreakdown := ⟨saturatingMul annualFee years, 0, 0⟩
  let expiresAt := saturatingAdd now (saturatingMul years yearSeconds)
  { label, durationYears, feeBreakdown
    totalFee          := feeBreakdown.total
    feeCurrency       := "XLM"
    expiresAt
    gracePeriodEndsAt := saturatingAdd expiresAt gracePeriodSeconds
    quotedAt          := now
    contractId        := some contractId }

/-- The offer for a label, at the client's own rates. -/
def XlmNsClient.quoteRegistration (label : String) (durationYears : UInt32) : Action ω RegistrationQuote := do
  requireLabel label "label"
  check (durationYears != 0) "duration_years must be greater than zero"
  let registrarId ← requireContractId client.registrarContractId "registrar contract ID"
  fun w =>
    let (now, w') := out.nowUnix w
    (.ok (buildQuote label durationYears now registrarId), w')

/-- `fee_paid` of a renewal, also its `fee_estimate`. -/
def renewalFee (additionalYears : UInt32) : UInt64 :=
  saturatingAdd (saturatingMul baseFeePerYear additionalYears.toUInt64) networkFee

/-- What `register` would charge. -/
def XlmNsClient.simulateRegister (label owner : String) (durationYears : UInt32) : Action ω SimulationResult := do
  requireLabel label "label"
  requireLabel owner "owner"
  check (durationYears != 0) "duration_years must be greater than zero"
  let _ ← requireContractId client.registrarContractId "registrar contract ID"
  let quote ← client.quoteRegistration out label durationYears
  return ⟨quote.totalFee, [owner], none, true⟩

/-- What `renew` would charge. -/
def XlmNsClient.simulateRenew (name : String) (additionalYears : UInt32) : Action ω SimulationResult := do
  requireLabel name "name"
  check (additionalYears != 0) "additional_years must be greater than zero"
  let _ ← requireContractId client.registrarContractId "registrar contract ID"
  return ⟨renewalFee additionalYears, [], none, true⟩

/-! ## Names -/

/-- Set a text record, or clear it. -/
def XlmNsClient.setTextRecord (name key : String) (value signer : Option String) : Action ω TransactionSubmission := do
  client.verifyWriteNetwork out
  requireLabel name "name"
  requireLabel key "key"
  match value with
  | some value => requireLabel value "value"
  | none       => pure ()
  client.maybeHydrateSubmission out (client.submission out "set_text_record" name client.resolverContractId signer)

/-- The network is not asked for. -/
def XlmNsClient.setTextRecords (name : String) (signer : Option String) : Action ω TransactionSubmission := do
  requireLabel name "name"
  client.maybeHydrateSubmission out (client.submission out "set_text_records" name client.resolverContractId signer)

/-- Buy a label. -/
def XlmNsClient.register (label owner : String) (durationYears : UInt32) (signer : Option String) :
    Action ω RegistrationReceipt := do
  requireLabel label "label"
  requireLabel owner "owner"
  check (durationYears != 0) "duration_years must be greater than zero"
  let _ ← requireContractId client.registrarContractId "registrar contract ID"
  client.verifyWriteNetwork out
  let quote ← client.quoteRegistration out label durationYears
  let submission ← client.maybeHydrateSubmission out
    (client.submission out "register" label client.registrarContractId signer)
  return {
    name      := label ++ ".xlm"
    owner, durationYears
    expiresAt := quote.expiresAt
    feePaid   := quote.totalFee
    submission }

/-- Buy more years. -/
def XlmNsClient.renew (name : String) (additionalYears : UInt32) (signer : Option String) : Action ω RenewalReceipt := do
  requireLabel name "name"
  check (additionalYears != 0) "additional_years must be greater than zero"
  let _ ← requireContractId client.registrarContractId "registrar contract ID"
  client.verifyWriteNetwork out
  let submission ← client.maybeHydrateSubmission out
    (client.submission out "renew" name client.registrarContractId signer)
  return {
    name, additionalYears
    newExpiry := mockReferenceTimestamp + additionalYears.toUInt64 * secondsPerYear
    feePaid   := renewalFee additionalYears
    submission }

/-- Hand a name on. -/
def XlmNsClient.transfer (name newOwner : String) (signer : Option String) : Action ω TransactionSubmission := do
  client.verifyWriteNetwork out
  requireLabel name "name"
  requireLabel newOwner "new_owner"
  validateAccount newOwner "new_owner"
  client.maybeHydrateSubmission out (client.submission out "transfer" name client.registryContractId signer)

/-! ## Subdomains -/

/-- What the writes of subdomains have in common: `named` is what must not be blank, and under which name. -/
def XlmNsClient.subdomainWrite (function : String) (named : List (String × String)) (account field : String)
    (dryRun : Bool) : Action ω TransactionSubmission := do
  client.verifyWriteNetwork out
  named.forM (fun (value, field) => requireLabel value field)
  validateAccount account field
  let submission ← client.simulateAndSubmit out client.subdomainContractId function (some account) dryRun
  client.maybeHydrateSubmission out submission

/-- Register a name as a parent. -/
def XlmNsClient.registerParent (parent owner : String) (dryRun : Bool) : Action ω TransactionSubmission :=
  client.subdomainWrite out "register_parent" [(parent, "parent")] owner "owner" dryRun

/-- Let somebody create names below a parent. -/
def XlmNsClient.addController (parent controller : String) (dryRun : Bool) : Action ω TransactionSubmission :=
  client.subdomainWrite out "add_controller" [(parent, "parent")] controller "controller" dryRun

/-- Create a name below a parent. -/
def XlmNsClient.createSubdomain (label parent owner : String) (dryRun : Bool) : Action ω TransactionSubmission :=
  client.subdomainWrite out "create_subdomain" [(label, "label"), (parent, "parent")] owner "owner" dryRun

/-- Hand a subdomain on. -/
def XlmNsClient.transferSubdomain (fqdn newOwner : String) (dryRun : Bool) : Action ω TransactionSubmission :=
  client.subdomainWrite out "transfer_subdomain" [(fqdn, "fqdn")] newOwner "new_owner" dryRun

/-! ## Tokens -/

/-- What the writes of tokens have in common. The network is not asked for. -/
def XlmNsClient.nftWrite (function tokenId account field : String) (dryRun : Bool) : Action ω TransactionSubmission := do
  requireLabel tokenId "token_id"
  validateAccount account field
  let submission ← client.simulateAndSubmit out client.nftContractId function (some account) dryRun
  client.maybeHydrateSubmission out submission

/-- Mint a token. -/
def XlmNsClient.mintNft (tokenId owner : String) (dryRun : Bool) : Action ω TransactionSubmission :=
  client.nftWrite out "mint" tokenId owner "owner" dryRun

/-- Approve an operator for a token. -/
def XlmNsClient.approveNft (tokenId operator : String) (dryRun : Bool) : Action ω TransactionSubmission :=
  client.nftWrite out "approve" tokenId operator "operator" dryRun

/-- Hand a token on. -/
def XlmNsClient.transferNft (tokenId newOwner : String) (dryRun : Bool) : Action ω TransactionSubmission :=
  client.nftWrite out "transfer" tokenId newOwner "new_owner" dryRun

/-! ## Auctions, chains and the reserved labels -/

/-- The submission of an auction call, once its arguments are checked. -/
def XlmNsClient.auctionSubmission (operation : String) (signer : Option String) : Action ω TransactionSubmission := do
  let passphrase ← client.rpcContext out
  return makeSubmission out operation client.auctionContractId signer (some passphrase)

/-- Open an auction. -/
def XlmNsClient.createAuction (name asset treasury : String) (reservePrice durationSeconds : UInt64)
    (signer : Option String) : Action ω TransactionSubmission := do
  client.verifyWriteNetwork out
  requireLabel name "name"
  check (reservePrice != 0) "reserve_price must be greater than zero"
  check (durationSeconds != 0) "duration_seconds must be greater than zero"
  requireLabel asset "asset"
  validateAccount treasury "treasury"
  client.auctionSubmission out "create_auction" signer

/-- Bid in an auction. -/
def XlmNsClient.bidAuction (name : String) (amount : UInt64) (signer : Option String) :
    Action ω TransactionSubmission := do
  client.verifyWriteNetwork out
  requireLabel name "name"
  check (amount != 0) "bid amount must be greater than zero"
  client.auctionSubmission out "bid_auction" signer

/-- Settle an auction. -/
def XlmNsClient.settleAuction (name : String) (signer : Option String) : Action ω TransactionSubmission := do
  client.verifyWriteNetwork out
  requireLabel name "name"
  client.auctionSubmission out "settle_auction" signer

/-- The network is not asked for. -/
def XlmNsClient.loadReservedManifest (labels : List String) (signer : Option String) :
    Action ω TransactionSubmission := do
  check (!labels.isEmpty) "labels must not be empty"
  match client.registrarContractId with
  | none             => throw (.invalidRequest "registrar contract ID not configured")
  | some registrarId =>
      let passphrase ← client.rpcContext out
      return makeSubmission out "load_reserved_manifest" (some registrarId) signer (some passphrase)

/-- No submission is made. -/
def XlmNsClient.registerChain (chain : String) : Action ω Unit := do
  client.verifyWriteNetwork out
  requireLabel chain "chain"
  let _ ← client.rpcContext out
  check client.bridgeContractId.isSome "bridge contract ID not configured"
  check (chain == "base" || chain == "ethereum" || chain == "arbitrum") ("unsupported chain: " ++ chain)

/-! ## All of them -/

/-- A writing call of the client. -/
inductive Write
  | setTextRecord (name key : String) (value signer : Option String)
  | setTextRecords (name : String) (signer : Option String)
  | register (label owner : String) (durationYears : UInt32) (signer : Option String)
  | renew (name : String) (additionalYears : UInt32) (signer : Option String)
  | transfer (name newOwner : String) (signer : Option String)
  | registerParent (parent owner : String) (dryRun : Bool)
  | addController (parent controller : String) (dryRun : Bool)
  | createSubdomain (label parent owner : String) (dryRun : Bool)
  | transferSubdomain (fqdn newOwner : String) (dryRun : Bool)
  | mintNft (tokenId owner : String) (dryRun : Bool)
  | approveNft (tokenId operator : String) (dryRun : Bool)
  | transferNft (tokenId newOwner : String) (dryRun : Bool)
  | createAuction (name asset treasury : String) (reservePrice durationSeconds : UInt64) (signer : Option String)
  | bidAuction (name : String) (amount : UInt64) (signer : Option String)
  | settleAuction (name : String) (signer : Option String)
  | loadReservedManifest (labels : List String) (signer : Option String)
  | registerChain (chain : String)
  | simulateAndSubmit (contractId : Option String) (function : String) (signer : Option String) (dryRun : Bool)
deriving DecidableEq, Repr

/-- The submission a write returns, alone or in a receipt. -/
def XlmNsClient.submit : Write → Action ω (Option TransactionSubmission)
  | .setTextRecord name key value signer => some <$> client.setTextRecord out name key value signer
  | .setTextRecords name signer => some <$> client.setTextRecords out name signer
  | .register label owner durationYears signer =>
      (fun receipt => some receipt.submission) <$> client.register out label owner durationYears signer
  | .renew name additionalYears signer =>
      (fun receipt => some receipt.submission) <$> client.renew out name additionalYears signer
  | .transfer name newOwner signer => some <$> client.transfer out name newOwner signer
  | .registerParent parent owner dryRun => some <$> client.registerParent out parent owner dryRun
  | .addController parent controller dryRun => some <$> client.addController out parent controller dryRun
  | .createSubdomain label parent owner dryRun => some <$> client.createSubdomain out label parent owner dryRun
  | .transferSubdomain fqdn newOwner dryRun => some <$> client.transferSubdomain out fqdn newOwner dryRun
  | .mintNft tokenId owner dryRun => some <$> client.mintNft out tokenId owner dryRun
  | .approveNft tokenId operator dryRun => some <$> client.approveNft out tokenId operator dryRun
  | .transferNft tokenId newOwner dryRun => some <$> client.transferNft out tokenId newOwner dryRun
  | .createAuction name asset treasury reservePrice durationSeconds signer =>
      some <$> client.createAuction out name asset treasury reservePrice durationSeconds signer
  | .bidAuction name amount signer => some <$> client.bidAuction out name amount signer
  | .settleAuction name signer => some <$> client.settleAuction out name signer
  | .loadReservedManifest labels signer => some <$> client.loadReservedManifest out labels signer
  | .registerChain chain => (fun _ => none) <$> client.registerChain out chain
  | .simulateAndSubmit contractId function signer dryRun =>
      some <$> client.simulateAndSubmit out contractId function signer dryRun

end XlmNs.Sdk
