import Mathlib.Data.List.Infix
import XlmNs.Ingestion.Supervisor
import XlmNs.Soroban.Retry

/-!
# `Sdk.Errors` — errors of the client library, and which of them are worth a retry

`errors.rs`, `config.rs` and `XlmNsClient::execute_with_retry` of `packages/xlm-ns-sdk/src`. A call that fails with a
transient error is made again after a pause that doubles each time, up to a cap; with jitter the pause is drawn at random
below that.

The RPC service, the clock and the random numbers are one world that every call changes (`Outside`). A total of pauses
beyond `Duration::MAX`, at which the code panics, is not modelled.
-/

namespace XlmNs.Sdk

open Soroban
open Ingestion (Duration maxDuration)

/-! ## Errors -/

/-- How long a request was retried in vain. -/
structure RateLimitError where
  retries     : UInt32
  totalWaitMs : UInt64
deriving DecidableEq, Repr

/-- Why a signer has not signed. -/
inductive SigningError
  | rejected (reason : String)
  | invalidKey (reason : String)
  | externalFailure (reason : String)
  | malformedEnvelope (reason : String)
deriving DecidableEq, Repr

/-- The codes the functions below return; the rest of the table is not modelled. -/
inductive ContractErrorCode
  | nameNotFound
  | other (code : UInt32)
deriving DecidableEq, Repr

/-- What a call of the client may fail with. -/
inductive SdkError
  | invalidRequest (message : String)
  | transport (message : String)
  | ingestion (message : String)
  | contractError (code : ContractErrorCode)
  | networkPassphraseMismatch (configured rpcReported : String)
  | transactionPassphraseMismatch (configured inTransaction : String)
  | contractInvocationFailed (operation reason : String) (txHash : Option String)
  | simulationFailed (operation reason : String)
  | insufficientFee (operation : String) (required available : Int64)
  | transactionTimeout (operation : String) (ledgerSubmitted : UInt32)
  | signingFailed (operation : String) (source : SigningError)
  | rateLimitExceeded (error : RateLimitError)
deriving DecidableEq, Repr

/-- `message.to_ascii_lowercase()` -/
def toAsciiLowercase (message : String) : List Char := message.toList.map Char.toLower

/-- `msg.contains(pattern)` -/
def containsText (msg : List Char) (pattern : String) : Bool := decide (pattern.toList <:+: msg)

/-- Whether a transport failure is worth another try, by the words of its message. -/
def transportIsRetryable (message : String) : Bool :=
  let msg := toAsciiLowercase message
  -- configuration and parsing failures are permanent
  if containsText msg "invalid rpc url" || containsText msg "json decoding error"
      || containsText msg "invalid response from server" then false
  else if containsText msg "429" || containsText msg "too many requests" || containsText msg "rate limit"
      || containsText msg "500" || containsText msg "502" || containsText msg "503" || containsText msg "504"
      || containsText msg "service unavailable" then true
  else if ["timeout", "timed out", "connection refused", "connection reset", "connection closed", "broken pipe",
      "network unreachable", "dns error", "temporary failure", "failed to send", "error sending request",
      "error trying to connect"].any (containsText msg) then true
  -- transport errors of no known kind
  else true

/-- Time-outs are, and some transport failures. -/
def isRetryable : SdkError → Bool
  | .transactionTimeout _ _ => true
  | .transport message      => transportIsRetryable message
  | _                       => false

/-- The markers of transient failures change nothing: what is not permanent is retried. -/
theorem transportIsRetryable_iff (message : String) :
    transportIsRetryable message = true ↔
      ∀ permanent ∈ ["invalid rpc url", "json decoding error", "invalid response from server"],
        containsText (toAsciiLowercase message) permanent = false := by
  unfold transportIsRetryable
  simp only [ite_self, List.forall_mem_cons, List.not_mem_nil, false_implies, implies_true, and_true]
  generalize containsText _ "invalid rpc url" = url
  generalize containsText _ "json decoding error" = decoding
  generalize containsText _ "invalid response from server" = response
  cases url <;> cases decoding <;> cases response <;> decide

/-! ## Pauses -/

/-- How often to try again, and how long to wait before. -/
structure RetryConfig where
  maxRetries     : UInt32
  initialBackoff : Duration
  maxBackoff     : Duration
  jitter         : Bool
deriving DecidableEq, Repr

/-- One of a millisecond's nanoseconds. -/
def nanosPerMilli : Nat := 1000000

/-- `duration.as_millis()` -/
def asMillis (d : Duration) : Nat := d / nanosPerMilli

/-- Three more tries, after up to one second, two and four. -/
def RetryConfig.default : RetryConfig := ⟨3, 1000 * nanosPerMilli, 30000 * nanosPerMilli, true⟩

/-- The wait after a failed attempt, without jitter: it doubles, up to the longest. -/
def RetryConfig.backoffFor (config : RetryConfig) (attempt : Nat) : Duration :=
  if config.maxRetries = 0 then 0
  else
    let factor := 2 ^ min attempt 16
    -- `checked_mul`
    let delay := if config.initialBackoff * factor ≤ maxDuration then config.initialBackoff * factor
      else config.maxBackoff
    min delay config.maxBackoff

/-- What the client is given. -/
structure Outside (ω : Type) where
  /-- `Client::new(rpc_url)`: the text of its error, if any -/
  newClient             : String → Option String
  /-- `client.get_network()`: the passphrase, or the text of an error -/
  getNetwork            : String → ω → Except String String × ω
  /-- `client.get_transaction_polling(hash, timeout)`: ledger and status, or the text of an error -/
  getTransactionPolling : String → Bytes → Duration → ω → Except String (Option UInt32 × String) × ω
  /-- `thread_rng().gen_range(0..=millis)` -/
  genRange              : (millis : UInt64) → ω → { draw : UInt64 // draw ≤ millis } × ω
  sleep                 : Duration → ω → ω
  /-- `now_unix()` -/
  nowUnix               : ω → UInt64 × ω
  /-- `DefaultHasher`, fed with an operation and a payload -/
  seed                  : String → String → UInt64

variable {ω : Type} (out : Outside ω)

/-- The wait with jitter: a random part of it, from none to all. -/
def RetryConfig.sleepDuration (config : RetryConfig) (attempt : Nat) (w : ω) : Duration × ω :=
  let base := config.backoffFor attempt
  if config.jitter = false ∨ base = 0 then (base, w)
  else
    let millis := min (asMillis base) (2 ^ 64 - 1)
    if millis = 0 then (0, w)
    else
      let (draw, w') := out.genRange (UInt64.ofNat millis) w
      (draw.val.toNat * nanosPerMilli, w')

/-! ## The retry loop -/

/-- What an `async fn` of the client does to the world it runs in. -/
abbrev Action (ω α : Type) := ExceptT SdkError (StateM ω) α

/-- A pause before retry `attempt + 1`, added to the time waited. -/
def pause (config : RetryConfig) (attempt : Nat) (wt : ω × Duration) : ω × Duration :=
  let (delay, w) := config.sleepDuration out attempt wt.1
  (out.sleep delay w, wt.2 + delay)

/-- One attempt, in a world that counts the time waited. -/
def attemptOf {α : Type} (f : Action ω α) (wt : ω × Duration) : Except SdkError α × (ω × Duration) :=
  let (answer, w) := f wt.1
  (answer, w, wt.2)

/-- **The retry loop**, after a client for the service has been made. -/
def executeWithRetry {α : Type} (config : RetryConfig) (rpcUrl : String) (f : Action ω α) : Action ω α := fun w =>
  match out.newClient rpcUrl with
  | some e => (.error (.invalidRequest ("failed to create RPC client: " ++ e)), w)
  | none   =>
      match retry (attemptOf f) isRetryable (pause out config) config.maxRetries.toNat 0 (w, 0) with
      | ((.ok value, _), w', _)               => (.ok value, w')
      | ((.error err, attempt), w', totalWait) =>
          if isRetryable err then
            (.error (.rateLimitExceeded ⟨UInt32.ofNat attempt, UInt64.ofNat (asMillis totalWait)⟩), w')
          else (.error err, w')

end XlmNs.Sdk
