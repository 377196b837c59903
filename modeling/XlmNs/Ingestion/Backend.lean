import XlmNs.Ingestion.Supervisor
import XlmNs.Sdk.Errors
import XlmNs.Soroban.Framing
import XlmNs.Soroban.Utf8

/-!
# `Ingestion.Backend` — the captive core as a process (`packages/xlm-ns-sdk/src/ingestion.rs`)

`TokioCaptiveCoreBackend` writes the configuration to a file, starts the core with it, and reads the frames the core writes to
its standard output or to a socket. `backed` is the ingestor's outside with this backend as its core.

The operating system is a parameter (`Os`). What a reader finds when it polls, one time after the other, is a `Stream`: data
come in pieces of any size. Paths are texts.
-/

namespace XlmNs.Ingestion

open Soroban
open Sdk (SdkError)

/-! ## The configuration -/

/-- Where the core writes its frames. -/
inductive CaptiveCoreOutputTarget
  | stdout
  | tcpSocket (address : String)
deriving DecidableEq, Repr

/-- `CaptiveCoreConfig`, with what only the backend reads. -/
structure CoreConfig where
  binaryPath         : String
  networkPassphrase  : String
  historyArchiveUrls : List String
  workingDir         : String
  stateArchiveDir    : String
  startLedger        : UInt32
  heartbeatTimeout   : Duration
  restartBackoff     : Duration
  maxRestartAttempts : UInt32
  outputTarget       : CaptiveCoreOutputTarget
  commandArgs        : List String
deriving DecidableEq, Repr

/-- `path.join(name)` -/
def joinPath (path name : String) : String :=
  if path.toList.getLast?.all (· = '/') then path ++ name else path ++ "/" ++ name

/-- `value.replace(c, text)` -/
def replaceChar (c : Char) (text value : List Char) : List Char :=
  value.flatMap (fun d => if d = c then text else [d])

/-- `escape_toml`: backslashes and quotes are escaped, and nothing else. -/
def escapeToml (value : String) : List Char :=
  replaceChar '"' ['\\', '"'] (replaceChar '\\' ['\\', '\\'] value.toList)

/-- The lines about one archive. -/
def archiveToml (idx : Nat) (url : String) : List Char :=
  "\n[HISTORY.archive_".toList ++ Nat.toDigits 10 idx ++ "]\nget=\"".toList ++ escapeToml url ++ "\"\n".toList

/-- `rendered_toml`, the configuration file of the core. -/
def CoreConfig.renderedToml (config : CoreConfig) : List Char :=
  "NODE_IS_VALIDATOR=false\nRUN_STANDALONE=false\nUNSAFE_QUORUM=true\nFAILURE_SAFETY=0\nHTTP_PORT=0\n".toList
    ++ "PUBLIC_HTTP_PORT=false\nNETWORK_PASSPHRASE=\"".toList ++ escapeToml config.networkPassphrase
    ++ "\"\nBUCKET_DIR_PATH=\"".toList ++ escapeToml (joinPath config.workingDir "buckets") ++ "\"\n".toList
    ++ config.historyArchiveUrls.zipIdx.flatMap (fun entry => archiveToml entry.2 entry.1)

/-- What the ingestor reads of it. -/
def CoreConfig.supervisor (config : CoreConfig) : CaptiveCoreConfig where
  stateArchiveDir    := utf8 config.stateArchiveDir
  startLedger        := config.startLedger
  heartbeatTimeout   := config.heartbeatTimeout
  restartBackoff     := config.restartBackoff
  maxRestartAttempts := config.maxRestartAttempts
  renderedToml       := encode config.renderedToml

/-- `value.replace(pattern, text)`, for a pattern that is not empty; `skip` more characters belong to the last match. -/
def replaceText (pattern text : List Char) : Nat → List Char → List Char
  | _, []               => []
  | skip + 1, _ :: rest => replaceText pattern text skip rest
  | 0, c :: rest        =>
      if pattern.isPrefixOf (c :: rest) then text ++ replaceText pattern text (pattern.length - 1) rest
      else c :: replaceText pattern text 0 rest

/-- What stands for the path of the configuration file in an argument, and for the ledger to start at. -/
def configPlaceholder : List Char := "\x7bconfig\x7d".toList

/-- What stands for the ledger to start at. -/
def startLedgerPlaceholder : List Char := "\x7bstart_ledger\x7d".toList

/-- The arguments of the core. -/
def CoreConfig.commandLine (config : CoreConfig) (configPath : String) (startLedger : UInt32) : List String :=
  let metadataStreamTarget := match config.outputTarget with
    | .stdout            => "stdout"
    | .tcpSocket address => address
  let base := if config.commandArgs.isEmpty then
      ["run", "--conf", "\x7bconfig\x7d", "--start-at-ledger", "\x7bstart_ledger\x7d", "--metadata-output-stream",
        metadataStreamTarget]
    else config.commandArgs
  base.map fun arg => String.ofList (replaceText startLedgerPlaceholder (Nat.toDigits 10 startLedger.toNat) 0
    (replaceText configPlaceholder configPath.toList 0 arg.toList))

/-! ## Frames -/

/-- How reading may fail. -/
inductive IoError
  | unexpectedEof
  | other (text : String)
deriving DecidableEq, Repr

/-- `error.to_string()` -/
def IoError.text : IoError → String
  | .unexpectedEof => "early eof"
  | .other text    => text

/-- What a poll of a reader finds. No data is the end, and `late` that there was nothing in time. -/
inductive Arrival
  | data (bytes : Bytes)
  | failed (error : String)
  | late
deriving DecidableEq, Repr

/-- What the polls of a reader find, one after the other; after the last, the end. -/
abbrev Stream := List Arrival

/-- `reader.read_exact(&mut buf)`, with a buffer of `n` bytes; `none` if the time ran out. What was read of a buffer that
    did not become full is gone. -/
def readExact : Nat → Stream → Option (Except IoError Bytes) × Stream
  | 0, s                  => (some (.ok []), s)
  | _ + 1, []             => (some (.error .unexpectedEof), [])
  | _ + 1, .late :: s     => (none, s)
  | _ + 1, .failed e :: s => (some (.error (.other e)), s)
  | n + 1, .data bytes :: s =>
      if bytes = [] then (some (.error .unexpectedEof), s)
      else if n + 1 < bytes.length then (some (.ok (bytes.take (n + 1))), .data (bytes.drop (n + 1)) :: s)
      else
        match readExact (n + 1 - bytes.length) s with
        | (some (.ok rest), s) => (some (.ok (bytes ++ rest)), s)
        | failure              => failure

/-- A frame that breaks off in its length. -/
def headerFailure (error : IoError) : SdkError := .ingestion ("failed to read XDR frame header: " ++ error.text)

/-- A frame that breaks off behind it. -/
def payloadFailure (error : IoError) : SdkError := .ingestion ("failed to read XDR frame payload: " ++ error.text)

/-- A frame: four bytes of length, and that many bytes. Nothing is returned as long as the stream is silent. -/
def readLengthPrefixedFrame (s : Stream) : Option (Except SdkError Bytes) × Stream :=
  match readExact 4 s with
  | (none, s)             => (none, s)
  | (some (.error e), s)  => (some (.error (headerFailure e)), s)
  | (some (.ok header), s) =>
      match readExact (ofBigEndian header) s with
      | (none, s)               => (none, s)
      | (some (.error e), s)    => (some (.error (payloadFailure e)), s)
      | (some (.ok payload), s) => (some (.ok payload), s)

/-- A frame that has not come in time. -/
def heartbeatFailure (timeout : Duration) : SdkError :=
  .ingestion ("captive core heartbeat timed out after " ++ toString (timeout / 1000000) ++ " ms")

/-- `CaptiveCoreReader::next_frame` -/
def CaptiveCoreReader.nextFrame (timeout : Duration) (s : Stream) : Except SdkError Bytes × Stream :=
  match readLengthPrefixedFrame s with
  | (some answer, s) => (answer, s)
  | (none, s)        => (.error (heartbeatFailure timeout), s)

/-! ## The process -/

/-- How connecting to the socket ends when it does not succeed. -/
inductive ConnectError
  | timedOut
  | refused (error : String)

/-- The operating system, in a state of type `ν`; processes are of type `π`. -/
structure Os (π ν : Type) where
  createDirAll  : String → ν → Except String Unit × ν
  write         : String → Bytes → ν → Except String Unit × ν
  /-- a binary, its arguments, whether its standard output is piped, and the directory it runs in -/
  spawn         : String → List String → Bool → String → ν → Except String (π × Option Stream) × ν
  /-- connects until it succeeds, fails for another reason than that nobody listens, or the time has run out -/
  connect       : String → Duration → ν → Except ConnectError Stream × ν
  /-- the exit status, if the process has ended -/
  tryWait       : π → Except String (Option String) × π
  /-- copies a directory, if it is there, into a new one in an archive directory -/
  archiveDir    : String → PathBuf → ν → Except SdkError (Option PathBuf) × ν

/-- The backend: the process, its reader and its configuration file. -/
structure TokioCaptiveCoreBackend (π ν : Type) where
  child             : Option π
  reader            : Option Stream
  currentConfigPath : Option String
  os                : ν

section
variable {π ν : Type} (os : Os π ν) (config : CoreConfig)

/-- Nothing runs yet. -/
def TokioCaptiveCoreBackend.new (world : ν) : TokioCaptiveCoreBackend π ν := ⟨none, none, none, world⟩

/-- There is a process, and it has not exited. -/
def TokioCaptiveCoreBackend.isRunning (b : TokioCaptiveCoreBackend π ν) : Bool × TokioCaptiveCoreBackend π ν :=
  match b.child with
  | none       => (false, b)
  | some child =>
      match os.tryWait child with
      | (.ok none, child)     => (true, { b with child := some child })
      | (.ok (some _), child) => (false, { b with child := some child })
      | (.error _, child)     => (false, { b with child := some child })

/-- The process is killed and waited for. -/
def TokioCaptiveCoreBackend.stop (b : TokioCaptiveCoreBackend π ν) : Except SdkError Unit × TokioCaptiveCoreBackend π ν :=
  (.ok (), { b with child := none, reader := none })

/-- Where the configuration for a start is written. -/
def configPathAt (startLedger : UInt32) : String :=
  joinPath config.workingDir ("stellar-core-" ++ toString startLedger.toNat ++ ".cfg.toml")

/-- The configuration is written below the working directory. -/
def writeRuntimeConfig (startLedger : UInt32) (renderedToml : Bytes) (world : ν) : Except SdkError String × ν :=
  match os.createDirAll config.workingDir world with
  | (.error e, world)  => (.error (.ingestion ("failed to create working dir: " ++ e)), world)
  | (.ok (), world) =>
      match os.write (configPathAt config startLedger) renderedToml world with
      | (.error e, world) => (.error (.ingestion ("failed to write captive core config: " ++ e)), world)
      | (.ok (), world)   => (.ok (configPathAt config startLedger), world)

/-- The frames are read from the pipe of the process, or from a socket. -/
def attachReader (childStdout : Option Stream) (world : ν) : Except SdkError Stream × ν :=
  match config.outputTarget with
  | .stdout =>
      match childStdout with
      | none        => (.error (.ingestion "captive core stdout pipe unavailable"), world)
      | some stdout => (.ok stdout, world)
  | .tcpSocket address =>
      match os.connect address config.heartbeatTimeout world with
      | (.ok stream, world) => (.ok stream, world)
      | (.error .timedOut, world) =>
          (.error (.ingestion ("timed out connecting to captive core metadata socket " ++ address)), world)
      | (.error (.refused e), world) =>
          (.error (.ingestion ("failed to connect to captive core metadata socket " ++ address ++ ": " ++ e)), world)

/-- **A start** stops the process that runs, writes the configuration, spawns another and attaches to its frames. -/
def TokioCaptiveCoreBackend.start (startLedger : UInt32) (renderedToml : Bytes) (b : TokioCaptiveCoreBackend π ν) :
    Except SdkError Unit × TokioCaptiveCoreBackend π ν :=
  let polled := b.isRunning os
  let b := if polled.1 then polled.2.stop.2 else polled.2
  match writeRuntimeConfig os config startLedger renderedToml b.os with
  | (.error e, world)       => (.error e, { b with os := world })
  | (.ok configPath, world) =>
      match os.spawn config.binaryPath (config.commandLine configPath startLedger)
          (decide (config.outputTarget = .stdout)) config.workingDir world with
      | (.error e, world) => (.error (.ingestion ("failed to spawn captive core: " ++ e)), { b with os := world })
      | (.ok (child, stdout), world) =>
          match attachReader os config stdout world with
          -- the process runs on, and nobody has it
          | (.error e, world)   => (.error e, { b with os := world })
          | (.ok reader, world) => (.ok (), ⟨some child, some reader, some configPath, world⟩)

/-- The end of `next_frame`. -/
def readAttached (timeout : Duration) (b : TokioCaptiveCoreBackend π ν) : Except SdkError Bytes × TokioCaptiveCoreBackend π ν :=
  match b.reader with
  | none        => (.error (.ingestion "captive core stream is not attached"), b)
  | some reader =>
      let read := CaptiveCoreReader.nextFrame timeout reader
      (read.1, { b with reader := some read.2 })

/-- The next frame of the process, within the time given. -/
def TokioCaptiveCoreBackend.nextFrame (timeout : Duration) (b : TokioCaptiveCoreBackend π ν) :
    Except SdkError Bytes × TokioCaptiveCoreBackend π ν :=
  match b.child with
  | none       => readAttached timeout b
  | some child =>
      match os.tryWait child with
      | (.error e, child) =>
          (.error (.ingestion ("failed to inspect captive core: " ++ e)), { b with child := some child })
      | (.ok (some status), _) =>
          (.error (.ingestion ("captive core exited before next frame: " ++ status)), { b with child := none, reader := none })
      | (.ok none, child) => readAttached timeout { b with child := some child }

/-- The working directory is copied away. -/
def TokioCaptiveCoreBackend.archiveState (archiveRoot : PathBuf) (b : TokioCaptiveCoreBackend π ν) :
    Except SdkError (Option PathBuf) × TokioCaptiveCoreBackend π ν :=
  let archived := os.archiveDir config.workingDir archiveRoot b.os
  (archived.1, { b with os := archived.2 })

/-- The ingestor's outside, with this backend as its core. -/
def backed {R χ T : Type} (out : Outside Unit R χ T SdkError) : Outside (TokioCaptiveCoreBackend π ν) R χ T SdkError where
  start             := TokioCaptiveCoreBackend.start os config
  nextFrame         := TokioCaptiveCoreBackend.nextFrame os
  archiveState      := TokioCaptiveCoreBackend.archiveState os config
  stop              := TokioCaptiveCoreBackend.stop
  isRunning         := TokioCaptiveCoreBackend.isRunning os
  nextFrom          := out.nextFrom
  decoder           := out.decoder
  sequenceExtractor := out.sequenceExtractor
  now               := out.now
  systemNow         := out.systemNow
  sleep             := out.sleep
  errorText         := out.errorText

end

end XlmNs.Ingestion
