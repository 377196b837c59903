import XlmNs.Soroban.Env
import XlmNs.Soroban.Machine
import XlmNs.Soroban.U64

/-!
# `Ingestion.Supervisor` — the ledger ingestor of the SDK (`packages/xlm-ns-sdk/src/ingestion.rs`)

`CaptiveCoreIngestor` hands out ledgers one by one. They come from a captive core, a process that is started at a
ledger and streams frames; when it fails it is started again, after `max_restart_attempts` failures ledgers come from
a remote source, and from time to time the core is tried again.

The core, the remote source, the decoder and the clock are parameters (`Outside`). An error returned through `?` keeps
what was changed before it: nothing rolls back here. Log lines are not modelled.
-/

namespace XlmNs.Ingestion

open Soroban

/-- Nanoseconds. -/
abbrev Duration := Nat

/-- A point in time, in nanoseconds from some origin. -/
abbrev Instant := Nat

/-- A path, as bytes. -/
abbrev PathBuf := Bytes

/-- What the ingestor reads of its configuration. -/
structure CaptiveCoreConfig where
  stateArchiveDir    : PathBuf
  startLedger        : UInt32
  heartbeatTimeout   : Duration
  restartBackoff     : Duration
  maxRestartAttempts : UInt32
  /-- `rendered_toml()`, a text made of the fields that are not listed here -/
  renderedToml       : Bytes
deriving DecidableEq, Repr

/-- Where a ledger comes from. -/
inductive IngestionSource
  | captiveCore
  | remote
deriving DecidableEq, Repr

/-- A ledger that is handed out. -/
structure IngestedLedger (T : Type) where
  payload        : T
  rawXdr         : Bytes
  ledgerSequence : Option UInt32
  source         : IngestionSource
deriving DecidableEq, Repr

/-- What the ingestor is given: a core of type `B`, a remote source of type `R`, a clock of type `χ`, and a decoder
    into `T`. Each method returns the object after the call. -/
structure Outside (B R χ T ε : Type) where
  /-- `primary.start(start_ledger, rendered_toml)` -/
  start             : UInt32 → Bytes → B → Except ε Unit × B
  nextFrame         : Duration → B → Except ε Bytes × B
  archiveState      : PathBuf → B → Except ε (Option PathBuf) × B
  stop              : B → Except ε Unit × B
  isRunning         : B → Bool × B
  /-- `fallback.next_from(start_ledger)` -/
  nextFrom          : UInt32 → R → Except ε (IngestedLedger T) × R
  decoder           : Bytes → Except ε T
  sequenceExtractor : T → Option UInt32
  /-- `Instant::now()` -/
  now               : χ → Instant × χ
  /-- `SystemTime::now()` -/
  systemNow         : χ → Instant × χ
  sleep             : Duration → χ → χ
  /-- `error.to_string()` -/
  errorText         : ε → Bytes

/-- The ingestor, with the clock its calls of `now` read. -/
structure CaptiveCoreIngestor (B R χ : Type) where
  primary                    : B
  fallback                   : R
  lastProcessedLedger        : Option UInt32
  consecutiveRestartFailures : UInt32
  activeSource               : IngestionSource
  fallbackReason             : Option Bytes
  nextPrimaryRetryAt         : Instant
  lastArchivePath            : Option PathBuf
  lastHeartbeatAt            : Option Instant
  clock                      : χ

variable {B R χ T ε : Type} (out : Outside B R χ T ε) (config : CaptiveCoreConfig)

/-! ## Helpers -/

/-- The ledger after the last one handed out, or the first one. -/
def nextStartLedger (s : CaptiveCoreIngestor B R χ) : UInt32 :=
  match s.lastProcessedLedger with
  | some ledger => saturatingAdd32 ledger 1
  | none        => config.startLedger

/-- `Duration::MAX` -/
def maxDuration : Duration := (2 ^ 64 - 1) * 1000000000 + 999999999

/-- The backoff, doubled with every attempt up to the ninth; where that is more than `Duration::MAX`, the backoff
    itself. -/
def restartDelay (attempt : UInt32) : Duration :=
  let multiplier := 2 ^ min (attempt.toNat - 1) 8
  if config.restartBackoff * multiplier ≤ maxDuration then config.restartBackoff * multiplier
  else config.restartBackoff

/-- `Instant::now()` -/
def readNow (s : CaptiveCoreIngestor B R χ) : Instant × CaptiveCoreIngestor B R χ :=
  let read := out.now s.clock
  (read.1, { s with clock := read.2 })

/-- `self.last_heartbeat_at = Some(SystemTime::now())` -/
def heartbeat (s : CaptiveCoreIngestor B R χ) : CaptiveCoreIngestor B R χ :=
  let read := out.systemNow s.clock
  { s with lastHeartbeatAt := some read.1, clock := read.2 }

/-- `self.primary.start(self.next_start_ledger(), &rendered)` -/
def startPrimary (s : CaptiveCoreIngestor B R χ) : Except ε Unit × CaptiveCoreIngestor B R χ :=
  let started := out.start (nextStartLedger config s) config.renderedToml s.primary
  (started.1, { s with primary := started.2 })

/-! ## Construction -/

/-- An ingestor that has not started anything. -/
def new (primary : B) (fallback : R) (clock : χ) : CaptiveCoreIngestor B R χ :=
  let read := out.now clock
  { primary, fallback
    -- `checked_sub(1)`
    lastProcessedLedger        := if config.startLedger = 0 then none else some (config.startLedger - 1)
    consecutiveRestartFailures := 0
    activeSource               := .captiveCore
    fallbackReason             := none
    nextPrimaryRetryAt         := read.1
    lastArchivePath            := none
    lastHeartbeatAt            := none
    clock                      := read.2 }

/-- The core is started at the ledger that is due. -/
def start (s : CaptiveCoreIngestor B R χ) : Except ε Unit × CaptiveCoreIngestor B R χ :=
  startPrimary out config s

/-! ## Failures of the core -/

/-- The loop of `handle_primary_failure`, with the attempts that are left: whether the core is up again. -/
def restartLoop : Nat → CaptiveCoreIngestor B R χ → Bool × CaptiveCoreIngestor B R χ
  | 0, s => (false, s)
  | attempts + 1, s =>
      let s := { s with consecutiveRestartFailures := s.consecutiveRestartFailures + 1 }
      let s := { s with clock := out.sleep (restartDelay config s.consecutiveRestartFailures) s.clock }
      match startPrimary out config s with
      | (.ok (), s)   => (true, { s with activeSource := .captiveCore, fallbackReason := none })
      | (.error e, s) => restartLoop attempts { s with fallbackReason := some (out.errorText e) }

/-- **What is done when the core fails**: it is stopped, its state archived, and it is started again a few times.
    Until it is up, ledgers come from the remote source. -/
def handlePrimaryFailure (reason : Bytes) (s : CaptiveCoreIngestor B R χ) :
    Except ε Unit × CaptiveCoreIngestor B R χ :=
  let s := { s with fallbackReason := some reason, activeSource := .remote }
  -- `let _ = self.primary.stop().await;`
  let s := { s with primary := (out.stop s.primary).2 }
  let archived := out.archiveState config.stateArchiveDir s.primary
  let s := { s with primary := archived.2 }
  match archived.1 with
  | .error e => (.error e, s)
  | .ok path =>
      let s := { s with lastArchivePath := path }
      match restartLoop out config
          (config.maxRestartAttempts.toNat - s.consecutiveRestartFailures.toNat) s with
      | (true, s)  => (.ok (), s)
      | (false, s) =>
          let read := readNow out s
          (.ok (), { read.2 with nextPrimaryRetryAt := read.1 + config.restartBackoff })

/-! ## `next_ledger` -/

/-- How one turn of the loop of `next_ledger` ends. -/
inductive Flow (ε T : Type)
  | next
  | done (result : Except ε (IngestedLedger T))

/-- `self.handle_primary_failure(…).await?; continue;` -/
def recover (reason : Bytes) (s : CaptiveCoreIngestor B R χ) : Flow ε T × CaptiveCoreIngestor B R χ :=
  match handlePrimaryFailure out config reason s with
  | (.ok (), s)   => (.next, s)
  | (.error e, s) => (.done (.error e), s)

/-- A frame of the core has arrived. -/
def receiveFrame (frame : Bytes) (s : CaptiveCoreIngestor B R χ) : Flow ε T × CaptiveCoreIngestor B R χ :=
  match out.decoder frame with
  -- the frame is gone, and `last_processed_ledger` has not moved
  | .error e => (.done (.error e), s)
  | .ok payload =>
      let ledgerSequence := out.sequenceExtractor payload
      let s := { s with
        lastProcessedLedger        := ledgerSequence.orElse fun _ => s.lastProcessedLedger
        activeSource               := .captiveCore
        fallbackReason             := none
        consecutiveRestartFailures := 0 }
      (.done (.ok ⟨payload, frame, ledgerSequence, .captiveCore⟩), heartbeat out s)

/-- The turn while the core is the active source. -/
def captiveTurn (s : CaptiveCoreIngestor B R χ) : Flow ε T × CaptiveCoreIngestor B R χ :=
  let polled := out.isRunning s.primary
  let s := { s with primary := polled.2 }
  if polled.1 = false then recover out config (ascii "captive core process not running") s
  else
    let read := out.nextFrame config.heartbeatTimeout s.primary
    let s := { s with primary := read.2 }
    match read.1 with
    | .ok frame => receiveFrame out frame s
    | .error e  => recover out config (out.errorText e) s

/-- The last part of the loop: the next ledger from the remote source. -/
def fetchRemote (s : CaptiveCoreIngestor B R χ) : Flow ε T × CaptiveCoreIngestor B R χ :=
  let fetched := out.nextFrom (nextStartLedger config s) s.fallback
  let s := { s with fallback := fetched.2 }
  match fetched.1 with
  | .error e => (.done (.error e), s)
  | .ok ledger =>
      let s := { s with
        lastProcessedLedger := ledger.ledgerSequence.orElse fun _ => s.lastProcessedLedger
        activeSource        := .remote }
      (.done (.ok { ledger with source := .remote }), heartbeat out s)

/-- The turn while the remote source is active: when it is time, the core is tried first. -/
def remoteTurn (s : CaptiveCoreIngestor B R χ) : Flow ε T × CaptiveCoreIngestor B R χ :=
  let read := readNow out s
  if s.nextPrimaryRetryAt ≤ read.1 then
    match startPrimary out config read.2 with
    | (.ok (), s)   => (.next, { s with activeSource := .captiveCore, fallbackReason := none })
    | (.error e, s) =>
        let read := readNow out s
        fetchRemote out config { read.2 with
          fallbackReason := some (out.errorText e), nextPrimaryRetryAt := read.1 + config.restartBackoff }
  else fetchRemote out config read.2

/-- One turn of the loop of `next_ledger`. -/
def turn (s : CaptiveCoreIngestor B R χ) : Flow ε T × CaptiveCoreIngestor B R χ :=
  match s.activeSource with
  | .captiveCore => captiveTurn out config s
  | .remote      => remoteTurn out config s

/-- `next_ledger`, unless it takes more turns than these: a core that starts and fails over and over, with no backoff
    between, keeps it from returning. -/
def nextLedger : Nat → CaptiveCoreIngestor B R χ →
    Option (Except ε (IngestedLedger T) × CaptiveCoreIngestor B R χ)
  | 0, _ => none
  | turns + 1, s =>
      match turn out config s with
      | (.next, s)     => nextLedger turns s
      | (.done r, s) => some (r, s)

/-! ## Successive calls -/

/-- A client that calls `next_ledger` again and again: the ingestor, and the results so far. -/
structure Session (B R χ T ε : Type) where
  ingestor : CaptiveCoreIngestor B R χ
  returned : List (Except ε (IngestedLedger T))

/-- One turn in the loop of the call that is running. A call has no state of its own, so the turns of successive
    calls follow each other. -/
def step (s : Session B R χ T ε) (_ : Unit) : Except Empty (Session B R χ T ε) :=
  match turn out config s.ingestor with
  | (.next, ingestor)     => .ok { s with ingestor }
  | (.done r, ingestor) => .ok ⟨ingestor, s.returned ++ [r]⟩

variable {out config}

/-- **A failure of the core**, once it is stopped and archived: the restart loop runs with the attempts that are left,
    unless the archive fails; if no restart succeeds then a retry time is computed. -/
theorem handlePrimaryFailure_cases {reason : Bytes} {s s' : CaptiveCoreIngestor B R χ} {r : Except ε Unit}
    (h : handlePrimaryFailure out config reason s = (r, s')) :
    ∃ u : CaptiveCoreIngestor B R χ, u.activeSource = .remote ∧ u.lastProcessedLedger = s.lastProcessedLedger ∧
      u.consecutiveRestartFailures = s.consecutiveRestartFailures ∧ u.nextPrimaryRetryAt = s.nextPrimaryRetryAt ∧
      u.clock = s.clock ∧
      ((∃ e, r = .error e ∧ s' = u) ∨
        r = .ok () ∧ restartLoop out config
          (config.maxRestartAttempts.toNat - s.consecutiveRestartFailures.toNat) u = (true, s') ∨
        r = .ok () ∧ ∃ v, restartLoop out config
            (config.maxRestartAttempts.toNat - s.consecutiveRestartFailures.toNat) u = (false, v) ∧
          s' = { (readNow out v).2 with nextPrimaryRetryAt := (readNow out v).1 + config.restartBackoff }) := by
  unfold handlePrimaryFailure at h
  dsimp only at h
  split at h
  · -- the archive failed
    rename_i e _
    obtain ⟨rfl, rfl⟩ := Prod.mk.inj h
    refine ⟨_, ?_, ?_, ?_, ?_, ?_, Or.inl ⟨e, rfl, rfl⟩⟩ <;> rfl
  · split at h
    · rename_i hloop
      obtain ⟨rfl, rfl⟩ := Prod.mk.inj h
      refine ⟨_, ?_, ?_, ?_, ?_, ?_, Or.inr (Or.inl ⟨rfl, hloop⟩)⟩ <;> rfl
    · rename_i hloop
      obtain ⟨rfl, rfl⟩ := Prod.mk.inj h
      refine ⟨_, ?_, ?_, ?_, ?_, ?_, Or.inr (Or.inr ⟨rfl, _, hloop, rfl⟩)⟩ <;> rfl

theorem exec_next {s : Session B R χ T ε} {ingestor : CaptiveCoreIngestor B R χ}
    (h : turn out config s.ingestor = (.next, ingestor)) :
    exec (step out config) s () = { s with ingestor } := by
  apply exec_ok
  unfold step
  rw [h]

theorem exec_done {s : Session B R χ T ε} {ingestor : CaptiveCoreIngestor B R χ}
    {r : Except ε (IngestedLedger T)} (h : turn out config s.ingestor = (.done r, ingestor)) :
    exec (step out config) s () = ⟨ingestor, s.returned ++ [r]⟩ := by
  apply exec_ok
  unfold step
  rw [h]

/-- **A call that returns is a run of turns**, which adds its result and no other. -/
theorem nextLedger_run {turns : Nat} {s s' : CaptiveCoreIngestor B R χ} {r : Except ε (IngestedLedger T)}
    (h : nextLedger out config turns s = some (r, s')) (returned : List (Except ε (IngestedLedger T))) :
    ∃ taken, run (step out config) ⟨s, returned⟩ (List.replicate taken ()) = ⟨s', returned ++ [r]⟩ := by
  induction turns generalizing s with
  | zero => cases h
  | succ turns ih =>
      unfold nextLedger at h
      cases hturn : turn out config s with
      | mk flow u =>
          rw [hturn] at h
          cases flow with
          | next =>
              obtain ⟨taken, hrun⟩ := ih h
              refine ⟨taken + 1, ?_⟩
              have hnext : exec (step out config) ⟨s, returned⟩ () = ⟨u, returned⟩ := exec_next hturn
              rw [List.replicate_succ, run_cons, hnext]
              exact hrun
          | done result =>
              obtain ⟨rfl, rfl⟩ := Prod.mk.inj (Option.some.inj h)
              exact ⟨1, exec_done hturn⟩

end XlmNs.Ingestion
