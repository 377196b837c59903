import XlmNs.Sdk.Errors

/-!
# `Sdk.Client` — what the writing calls of the client library share (`packages/xlm-ns-sdk/src/client.rs`)

A write checks its arguments, asks the service for its network and refuses a wrong one, and builds a submission, which it
completes by polling for the transaction if it is configured to. Sending is still a stub in the source: the hash of a
submission is computed from the operation and a name.

The calls themselves are in `Sdk.Writes`. What reading calls answer is fixed in the source and not modelled, except for
quotes.
-/

namespace XlmNs.Sdk

open Soroban
open Ingestion (Duration)

/-! ## Text -/

/-- `char::is_whitespace` -/
def isWhitespace (ch : Char) : Bool :=
  let n := ch.toNat
  (9 ≤ n && n ≤ 13) || n == 0x20 || n == 0x85 || n == 0xa0 || n == 0x1680 || (0x2000 ≤ n && n ≤ 0x200a) ||
    n == 0x2028 || n == 0x2029 || n == 0x202f || n == 0x205f || n == 0x3000

/-- `value.trim()`, as characters -/
def trim (value : String) : List Char :=
  ((value.toList.dropWhile isWhitespace).reverse.dropWhile isWhitespace).reverse

/-- `value.trim().is_empty()` -/
def isBlank (value : String) : Bool := (trim value).isEmpty

/-- `char::is_ascii_alphanumeric` -/
def isAsciiAlphanumeric (ch : Char) : Bool := ch.isAlpha || ch.isDigit

/-- The length in bytes. -/
def byteLength (chars : List Char) : Nat := (String.ofList chars).utf8ByteSize

/-- `validate_contract_id` and `validate_account_address`: an address that starts with `first`; the errors under their
    texts. -/
def validateAddress (first : Char) (empty invalid : String) (address : String) : Except String Unit :=
  let trimmed := trim address
  if trimmed.isEmpty then .error empty
  else if byteLength trimmed ≠ 56 ∨ trimmed.head? ≠ some first ∨ ¬ trimmed.all isAsciiAlphanumeric then .error invalid
  else .ok ()

/-- `validate_contract_id` -/
def validateContractId : String → Except String Unit :=
  validateAddress 'C' "contract ID must not be empty" "contract ID is not a valid Stellar contract address"

/-- `validate_account_address` -/
def validateAccountAddress : String → Except String Unit :=
  validateAddress 'G' "account address must not be empty" "account address is not a valid Stellar account address"

/-! ## Hexadecimal -/

/-- The digit of a value below 16. -/
def hexDigit (n : Nat) : Char := if n < 10 then Char.ofNat (48 + n) else Char.ofNat (87 + n)

/-- `char::is_ascii_hexdigit`, with the value of the digit. -/
def hexValue (ch : Char) : Option Nat :=
  let n := ch.toNat
  if 48 ≤ n ∧ n ≤ 57 then some (n - 48)
  else if 97 ≤ n ∧ n ≤ 102 then some (n - 87)
  else if 65 ≤ n ∧ n ≤ 70 then some (n - 55)
  else none

/-- `format!("{word:016x}")` -/
def hexWord (word : UInt64) : List Char := (List.range 16).map (fun i => hexDigit (word.toNat / 16 ^ (15 - i) % 16))

/-- The bytes of pairs of digits. -/
def hexBytes : List Char → Option Bytes
  | []               => some []
  | [_]              => none
  | high :: low :: r =>
      match hexValue high, hexValue low, hexBytes r with
      | some h, some l, some bytes => some (UInt8.ofNat (16 * h + l) :: bytes)
      | _, _, _                    => none

/-- A hash is 64 hexadecimal digits, white space around them aside. -/
def parseSubmissionHash (hash : String) : Option Bytes :=
  let trimmed := trim hash
  if byteLength trimmed ≠ 64 ∨ ¬ trimmed.all (fun ch => (hexValue ch).isSome) then none
  else hexBytes trimmed

/-- `seed.rotate_left(n)` -/
def rotateLeft (seed : UInt64) (n : UInt64) : UInt64 := (seed <<< n) ||| (seed >>> (64 - n))

/-! ## The client -/

/-- How far a submission has come. -/
inductive SubmissionStatus
  | simulated
  | submitted
  | confirmed
  | failed
deriving DecidableEq, Repr

/-- What a write reports of its transaction. -/
structure TransactionSubmission where
  txHash            : String
  status            : SubmissionStatus
  ledger            : Option UInt32
  submittedAt       : UInt64
  contractId        : Option String
  networkPassphrase : Option String
  signer            : Option String
deriving DecidableEq, Repr

/-- The client, with what its writes read of its configuration. -/
structure XlmNsClient where
  rpcUrl                 : String
  networkPassphrase      : Option String
  registryContractId     : Option String
  registrarContractId    : Option String
  resolverContractId     : Option String
  auctionContractId      : Option String
  bridgeContractId       : Option String
  subdomainContractId    : Option String
  nftContractId          : Option String
  retry                  : RetryConfig
  pollFinalStatus        : Bool
  transactionPollTimeout : Duration
deriving DecidableEq, Repr

/-- `MOCK_REFERENCE_TIMESTAMP` -/
def mockReferenceTimestamp : UInt64 := 1682200000

variable {ω : Type} (out : Outside ω) (client : XlmNsClient)

/-- The retry loop with the client's own configuration. -/
def XlmNsClient.executeWithRetry {α : Type} (f : Action ω α) : Action ω α :=
  Sdk.executeWithRetry out client.retry client.rpcUrl f

/-- Fail with an invalid request unless `b` holds. -/
def check (b : Bool) (message : String) : Action ω Unit := if b then pure () else throw (.invalidRequest message)

/-- The passphrase a write needs. -/
def XlmNsClient.configuredNetworkPassphrase : Action ω String :=
  match client.networkPassphrase with
  | some passphrase => pure passphrase
  | none            => throw (.invalidRequest "network passphrase not configured")

/-- `network::fetch_network_passphrase` -/
def fetchNetworkPassphrase (rpcUrl : String) : Action ω String := fun w =>
  match out.getNetwork rpcUrl w with
  | (.ok passphrase, w') => (.ok passphrase, w')
  | (.error e, w')       => (.error (.transport ("failed to get network: " ++ e)), w')

/-- `network::verify_network_passphrase` -/
def verifyNetworkPassphrase (configured rpcUrl : String) : Action ω Unit := do
  let rpcReported ← fetchNetworkPassphrase out rpcUrl
  if configured ≠ rpcReported then throw (.networkPassphraseMismatch configured rpcReported)

/-- **A write asks the service which network it is on**, and fails on another than the configured one. -/
def XlmNsClient.verifyWriteNetwork : Action ω Unit := do
  let configured ← client.configuredNetworkPassphrase
  tryCatch (client.executeWithRetry out (verifyNetworkPassphrase out configured client.rpcUrl)) fun
    | .networkPassphraseMismatch configured rpcReported => throw (.networkPassphraseMismatch configured rpcReported)
    -- an unreachable service does not stop a write
    | _ => pure ()

/-- The address of a contract has to be configured, and to be one. -/
def requireContractId (contractId : Option String) (fieldName : String) : Action ω String :=
  match contractId with
  | none            => throw (.invalidRequest (fieldName ++ " not configured"))
  | some contractId =>
      match validateContractId contractId with
      | .ok ()     => pure contractId
      | .error err => throw (.invalidRequest (fieldName ++ " is invalid: " ++ err))

/-- An argument that has to be an account. -/
def validateAccount (value fieldName : String) : Action ω Unit :=
  match validateAccountAddress value with
  | .ok ()     => pure ()
  | .error err => throw (.invalidRequest (fieldName ++ " is invalid: " ++ err))

/-- An argument that must not be blank. -/
def requireLabel (value fieldName : String) : Action ω Unit := check (!isBlank value) (fieldName ++ " must not be empty")

/-- A hash made of the arguments: nothing has been submitted. -/
def generatedSubmissionHash (operation payload : String) : String :=
  let seed := out.seed operation payload
  let words := [seed, rotateLeft seed 13, rotateLeft seed 27, seed ^^^ 0xa5a5a5a5a5a5a5a5]
  String.ofList (words.flatMap hexWord)

/-- One poll of a transaction. -/
def pollTransaction (txHash : Bytes) : Action ω (Option UInt32 × String) := fun w =>
  match out.getTransactionPolling client.rpcUrl txHash client.transactionPollTimeout w with
  | (.ok response, w') => (.ok response, w')
  | (.error e, w')     => (.error (.transport e), w')

/-- `response.status` as a status, if it is final. -/
def hydratedStatus (status : SubmissionStatus) : String → SubmissionStatus
  | "SUCCESS" => .confirmed
  | "FAILED"  => .failed
  | _         => status

/-- **A submission takes over what the service says of its hash**, if the client asks for that; a failed poll
    changes nothing. -/
def XlmNsClient.maybeHydrateSubmission (submission : TransactionSubmission) : Action ω TransactionSubmission :=
  if client.pollFinalStatus = false then pure submission
  else
    match parseSubmissionHash submission.txHash with
    | none        => pure submission
    | some txHash =>
        tryCatch (do
          let response ← client.executeWithRetry out (pollTransaction out client txHash)
          return { submission with
            ledger := response.1
            status := hydratedStatus submission.status response.2 }) fun _ => pure submission

/-- The submission of a call without arguments. -/
def XlmNsClient.simulateAndSubmit (contractId : Option String) (function : String) (signer : Option String)
    (dryRun : Bool) : Action ω TransactionSubmission := do
  let contractId ← requireContractId contractId "contract ID"
  client.maybeHydrateSubmission out {
    txHash            := generatedSubmissionHash out function contractId
    status            := if dryRun then .simulated else .submitted
    ledger            := none
    submittedAt       := 0
    contractId        := some contractId
    networkPassphrase := client.networkPassphrase
    signer            := signer }

/-- `rpc_context`: the passphrase of a client that can be created. -/
def XlmNsClient.rpcContext : Action ω String :=
  match out.newClient client.rpcUrl with
  | some e => throw (.invalidRequest ("failed to create RPC client: " ++ e))
  | none   => pure (client.networkPassphrase.getD "")

/-- The submission of the newer writes. -/
def makeSubmission (operation : String) (contractId signer networkPassphrase : Option String) :
    TransactionSubmission where
  txHash            := generatedSubmissionHash out operation (contractId.getD "")
  status            := .submitted
  ledger            := none
  submittedAt       := mockReferenceTimestamp
  contractId        := contractId
  networkPassphrase := networkPassphrase
  signer            := signer

/-- The submission the older writes build in place. -/
def XlmNsClient.submission (operation payload : String) (contractId signer : Option String) : TransactionSubmission where
  txHash            := generatedSubmissionHash out operation payload
  status            := .submitted
  ledger            := none
  submittedAt       := mockReferenceTimestamp
  contractId        := contractId
  networkPassphrase := client.networkPassphrase
  signer            := signer

end XlmNs.Sdk
