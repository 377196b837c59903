import XlmNs.Ingestion.Correctness.Frames
import XlmNs.Ingestion.Correctness.Gapless

/-!
# `Ingestion.Correctness.Feeding` — ledgers from a process

A core that is spawned to start at a ledger writes the frames of that ledger and of those after it. It may stop anywhere, and
what it writes may come in any pieces, late or with errors between. The backend then is a core that feeds the ingestor
(`backend_feeds`), and if the decoder accepts the frames then every session is gapless (`session_gapless`), through all
timeouts, restarts and times on the remote source: a frame that was read in part is never continued.
-/

namespace XlmNs.Ingestion

open Soroban
open Sdk (SdkError)

section Feeding
variable {π ν R χ T : Type} {os : Os π ν} {config : CoreConfig} {frameFor : UInt32 → Bytes}
variable {s s' : Stream} {p : Nat} {frame : Bytes}

/-! ## The stream of a core -/

/-- What the stream holds is the beginning of the frames of ledger `p` and the ones after it. -/
def FeedsFrom (frameFor : UInt32 → Bytes) (p : Nat) (s : Stream) : Prop :=
  ∃ n, p + n ≤ UInt32.size ∧ received s <+: (List.range' p n).flatMap (fun i => framed 4 (frameFor (UInt32.ofNat i)))

/-- A frame that is read from it is the one of ledger `p`, and the stream goes on with the next. -/
theorem FeedsFrom.next (h : FeedsFrom frameFor p s) (hfit : ∀ ledger, Fits 4 (frameFor ledger))
    (hread : splitFrame 4 (received s) = some (frame, received s')) :
    p < UInt32.size ∧ frame = frameFor (UInt32.ofNat p) ∧ FeedsFrom frameFor (p + 1) s' := by
  obtain ⟨n, hsize, more, hmore⟩ := h
  obtain ⟨-, hreceived⟩ := splitFrame_iff.mp hread
  cases n with
  | zero =>
      have hlength := splitFrame_length hread
      have hnone : received s = [] := (List.append_eq_nil_iff.mp hmore).1
      rw [hnone, List.length_nil] at hlength
      omega
  | succ n =>
      rw [List.range'_succ, List.flatMap_cons] at hmore
      have hsplit : splitFrame 4 (received s ++ more) = some (frame, received s' ++ more) := by
        refine splitFrame_iff.mpr ⟨(splitFrame_iff.mp hread).1, ?_⟩
        rw [hreceived, List.append_assoc]
      rw [hmore, splitFrame_framed (hfit _)] at hsplit
      obtain ⟨hframe, hrest⟩ := Prod.mk.inj (Option.some.inj hsplit)
      exact ⟨by omega, hframe.symm, n, by omega, more, hrest.symm⟩

/-- **What is assumed of the cores that are spawned**: what comes from one, on the pipe or by a connection to the socket, are
    frames from the ledger it was started at. -/
def Spawned (os : Os π ν) (config : CoreConfig) (frameFor : UInt32 → Bytes) : Prop :=
  ∀ configPath ledger piped world child stdout world',
    os.spawn config.binaryPath (config.commandLine configPath ledger) piped config.workingDir world
      = (.ok (child, stdout), world') →
    (∀ stream, stdout = some stream → FeedsFrom frameFor ledger.toNat stream) ∧
    ∀ address timeout stream world'', os.connect address timeout world' = (.ok stream, world'') →
      FeedsFrom frameFor ledger.toNat stream

/-- The stream the backend reads from is at ledger `p`. -/
def BackendAt (frameFor : UInt32 → Bytes) (b : TokioCaptiveCoreBackend π ν) (p : Nat) : Prop :=
  ∀ reader, b.reader = some reader → FeedsFrom frameFor p reader

/-! ## The backend -/

section Backend
variable {b b' : TokioCaptiveCoreBackend π ν}

/-- A start that succeeds leaves a reader on what the new core writes. -/
theorem start_reads (hspawned : Spawned os config frameFor) {ledger : UInt32} {toml : Bytes}
    (h : TokioCaptiveCoreBackend.start os config ledger toml b = (.ok (), b')) : BackendAt frameFor b' ledger.toNat := by
  unfold TokioCaptiveCoreBackend.start at h
  dsimp only at h
  split at h
  · cases (Prod.mk.inj h).1
  · rename_i configPath world _
    split at h
    · cases (Prod.mk.inj h).1
    · rename_i child stdout world' hspawn
      obtain ⟨hpipe, hsocket⟩ := hspawned _ _ _ _ _ _ _ hspawn
      split at h
      · cases (Prod.mk.inj h).1
      · rename_i reader world'' hattach
        obtain ⟨-, rfl⟩ := Prod.mk.inj h
        rintro reader' heq
        obtain rfl : reader = reader' := Option.some.inj heq
        unfold attachReader at hattach
        split at hattach
        · split at hattach
          · cases (Prod.mk.inj hattach).1
          · rename_i stream
            obtain ⟨hreader, -⟩ := Prod.mk.inj hattach
            rw [← Except.ok.inj hreader]
            exact hpipe stream rfl
        · split at hattach
          · rename_i stream world₁ hconnect
            obtain ⟨hreader, -⟩ := Prod.mk.inj hattach
            rw [← Except.ok.inj hreader]
            exact hsocket _ _ _ _ hconnect
          · cases (Prod.mk.inj hattach).1
          · cases (Prod.mk.inj hattach).1

/-- Asking whether the process runs leaves the reader. -/
theorem isRunning_reader : (b.isRunning os).2.reader = b.reader := by
  unfold TokioCaptiveCoreBackend.isRunning
  split
  · rfl
  · split <;> rfl

/-- A frame comes from the reader, which stays attached. -/
theorem nextFrame_reader {timeout : Duration} (h : b.nextFrame os timeout = (.ok frame, b')) :
    ∃ reader s', b.reader = some reader ∧ CaptiveCoreReader.nextFrame timeout reader = (.ok frame, s') ∧ b'.reader = some s' := by
  have hattached : ∀ c : TokioCaptiveCoreBackend π ν, c.reader = b.reader → readAttached timeout c = (.ok frame, b') →
      ∃ reader s', b.reader = some reader ∧ CaptiveCoreReader.nextFrame timeout reader = (.ok frame, s') ∧
        b'.reader = some s' := by
    intro c hsame hread
    unfold readAttached at hread
    split at hread
    · cases (Prod.mk.inj hread).1
    · rename_i reader hreader
      obtain ⟨hframe, rfl⟩ := Prod.mk.inj hread
      exact ⟨reader, _, hsame.symm.trans hreader, Prod.ext hframe rfl, rfl⟩
  unfold TokioCaptiveCoreBackend.nextFrame at h
  cases hchild : b.child with
  | none =>
      rw [hchild] at h
      exact hattached b rfl h
  | some child =>
      rw [hchild] at h
      dsimp only at h
      split at h
      · cases (Prod.mk.inj h).1
      · cases (Prod.mk.inj h).1
      · exact hattached { b with child := some _ } rfl h

end Backend

/-- What makes the frames ledgers: each fits the length in front of it, and decodes to its ledger. -/
structure Decodes (out : Outside Unit R χ T SdkError) (frameFor : UInt32 → Bytes) : Prop where
  fits    : ∀ ledger, Fits 4 (frameFor ledger)
  decoded : ∀ ledger, ∃ payload, out.decoder (frameFor ledger) = .ok payload ∧ out.sequenceExtractor payload = some ledger

section Sessions
variable {out : Outside Unit R χ T SdkError}

/-- A frame the backend reads at ledger `p` is that ledger's. -/
theorem BackendAt.next {b b' : TokioCaptiveCoreBackend π ν} {timeout : Duration} (h : BackendAt frameFor b p)
    (hdecodes : Decodes out frameFor) (hread : b.nextFrame os timeout = (.ok frame, b')) :
    p < UInt32.size ∧ frame = frameFor (UInt32.ofNat p) ∧ BackendAt frameFor b' (p + 1) := by
  obtain ⟨reader, s', hreader, hframe, hreader'⟩ := nextFrame_reader hread
  obtain ⟨hsize, heq, hnext⟩ := (h reader hreader).next hdecodes.fits (nextFrame_ok hframe)
  refine ⟨hsize, heq, ?_⟩
  rintro r hr
  obtain rfl : s' = r := Option.some.inj (hreader'.symm.trans hr)
  exact hnext

/-- **The backend is a core that feeds the ingestor.** -/
theorem backend_feeds (hspawned : Spawned os config frameFor) (hdecodes : Decodes out frameFor) :
    CoreFeeds (backed os config out) config.supervisor (BackendAt frameFor) where
  started h := start_reads hspawned h
  polled {b p} h := by
    intro reader hreader
    exact h reader (isRunning_reader.symm.trans hreader)
  streamed h hread := (h.next hdecodes hread).2.2
  sequence {b b' p frame payload} h hread hdecoded := by
    obtain ⟨hsize, rfl, -⟩ := h.next hdecodes hread
    obtain ⟨payload', hdecoded', hsequence⟩ := hdecodes.decoded (UInt32.ofNat p)
    obtain rfl : payload' = payload := Except.ok.inj (hdecoded'.symm.trans hdecoded)
    exact ⟨_, hsequence, UInt32.toNat_ofNat_of_lt' hsize⟩

/-! ## Sessions -/

variable {fallback : R} {clock : χ} {primary : TokioCaptiveCoreBackend π ν}
variable {ses : Session (TokioCaptiveCoreBackend π ν) R χ T SdkError}

/-- While the core is in step, no frame of it is rejected. -/
theorem noteRejected_eq_false (hspawned : Spawned os config frameFor) (hdecodes : Decodes out frameFor)
    (h : InStep config.supervisor (BackendAt frameFor) ses false)
    (ses' : Session (TokioCaptiveCoreBackend π ν) R χ T SdkError) :
    noteRejected (backed os config out) config.supervisor ses () ses' false = false := by
  cases hread : frameRead (backed os config out) config.supervisor ses.ingestor with
  | none       => exact note_unread false hread
  | some frame =>
      have hcore : CoreFeeds (backed os config out) config.supervisor _ := backend_feeds hspawned hdecodes
      have htaken := hread
      unfold frameRead at hread
      split at hread
      · cases hread
      · rename_i hactive
        split at hread
        · cases hread
        · obtain ⟨p, hat, -⟩ := h.stream hactive
          cases hnext : (backed os config out).nextFrame config.supervisor.heartbeatTimeout
              ((backed os config out).isRunning ses.ingestor.primary).2 with
          | mk answer primary' =>
              rw [hnext] at hread
              cases answer with
              | error e => cases hread
              | ok frame' =>
                  obtain rfl : frame' = frame := Option.some.inj hread
                  obtain ⟨-, rfl, -⟩ := (hcore.polled hat).next hdecodes hnext
                  obtain ⟨payload, hdecoded, -⟩ := hdecodes.decoded (UInt32.ofNat p)
                  exact note_accepted false htaken hdecoded

/-- What is due never goes back. -/
theorem due_le_exec (out : Outside (TokioCaptiveCoreBackend π ν) R χ T SdkError) (config : CaptiveCoreConfig) :
    due config ses ≤ due config (exec (step out config) ses ()) := by
  unfold due
  rcases delivered_exec out config ses with ⟨-, hsame⟩ | ⟨ledger, -, hnew⟩
  · exact Nat.add_le_add_left (Nat.le_of_eq (congrArg List.length hsame.symm)) _
  · rw [hnew, List.length_append]
    omega

/-- **Ledgers come from a process without gap or duplicate**, whichever frames come in pieces, late or broken off, however
    often the core is started again and whenever the remote source serves instead. -/
theorem session_gapless (os : Os π ν) (config : CoreConfig) (frameFor : UInt32 → Bytes) (out : Outside Unit R χ T SdkError)
    (hspawned : Spawned os config frameFor) (hdecodes : Decodes out frameFor)
    (hremote : RemoteServes (backed os config out)) (primary : TokioCaptiveCoreBackend π ν) (fallback : R) (clock : χ)
    {s : CaptiveCoreIngestor (TokioCaptiveCoreBackend π ν) R χ}
    (hstart : start (backed os config out) config.supervisor (new (backed os config out) config.supervisor primary fallback clock)
      = (.ok (), s)) (turns : List Unit) :
    Gapless config.supervisor (run (step (backed os config out) config.supervisor) ⟨s, []⟩ turns).returned := by
  have hcore : CoreFeeds (backed os config out) config.supervisor _ := backend_feeds hspawned hdecodes
  let Inv : Session (TokioCaptiveCoreBackend π ν) R χ T SdkError → Prop := fun ses =>
    due config.supervisor ses ≤ u32Max → InStep config.supervisor (BackendAt frameFor) ses false
  have hhands : ∀ ses u, Inv ses → HandsOutDue (backed os config out) config.supervisor ses u := by
    intro ses u hinv
    refine (handsOutDue_iff hcore hremote u fun hbelow => hinv (Nat.le_of_lt hbelow)).mpr ?_
    exact fun _ hrejected => absurd hrejected Bool.false_ne_true
  have hkeeps : Preserves (step (backed os config out) config.supervisor) Inv := by
    intro ses u ses' hinv hok hbelow
    obtain rfl : exec (step (backed os config out) config.supervisor) ses () = ses' := exec_ok hok
    have hin := inStep_turn hcore hremote hinv (hhands ses () hinv) hbelow
    rwa [noteRejected_eq_false hspawned hdecodes (hinv (Nat.le_trans (due_le_exec _ _) hbelow))] at hin
  have hinit : Inv ⟨s, []⟩ := by
    intro _
    obtain ⟨hlast, -, -, hstarted⟩ := startPrimary_spec hstart
    have hnext : nextStartLedger config.supervisor s = config.supervisor.startLedger :=
      (nextStartLedger_congr hlast).trans (next_new primary fallback clock)
    refine ⟨congrArg UInt32.toNat hnext, fun _ => ?_⟩
    rw [next_new] at hstarted
    exact ⟨_, hcore.started hstarted, Nat.le_refl _, nofun, fun _ => rfl⟩
  exact (gapless_run_iff turns _).mpr ⟨nofun, along_of_invariant hkeeps hhands turns hinit⟩

end Sessions
end Feeding

/-! ## A core that is restarted for each ledger -/

namespace SlowCore

/-- The frame for a ledger is its number. -/
def frameFor (ledger : UInt32) : Bytes := toBigEndian 4 ledger.toNat

/-- The frame of the ledger, in two pieces, and then nothing. -/
def streamFrom (ledger : UInt32) : Stream := [.data [0, 0, 0], .data (4 :: frameFor ledger), .late]

/-- The ledger of the fifth argument. -/
def ledgerOf (args : List String) : UInt32 := UInt32.ofNat (Nat.ofDigitChars 10 (args[4]?.getD "").toList 0)

/-- A system whose core writes the frame of the ledger it is started at. -/
def os : Os Unit Unit where
  createDirAll _ _     := (.ok (), ())
  write _ _ _          := (.ok (), ())
  spawn _ args _ _ _   := (.ok ((), some (streamFrom (ledgerOf args))), ())
  connect _ _ _        := (.error .timedOut, ())
  tryWait _            := (.ok none, ())
  archiveDir _ _ _     := (.ok none, ())

/-- A configuration with a pipe. -/
def config : CoreConfig where
  binaryPath         := "stellar-core"
  networkPassphrase  := "Test SDF Network ; September 2015"
  historyArchiveUrls := []
  workingDir         := "/tmp/xlm-ns-captive-core"
  stateArchiveDir    := "/tmp/xlm-ns-captive-core-archive"
  startLedger        := 41
  heartbeatTimeout   := 15000000000
  restartBackoff     := 5000000000
  maxRestartAttempts := 3
  outputTarget       := .stdout
  commandArgs        := []

/-- An outside that reads the number of a ledger from its frame. -/
def out : Outside Unit Unit Unit UInt32 SdkError where
  start _ _ _             := (.ok (), ())
  nextFrame _ _           := (.ok [], ())
  archiveState _ _        := (.ok none, ())
  stop _                  := (.ok (), ())
  isRunning _             := (true, ())
  nextFrom ledger _       := (.ok ⟨ledger, frameFor ledger, some ledger, .remote⟩, ())
  decoder frame           := .ok (UInt32.ofNat (ofBigEndian frame))
  sequenceExtractor       := some
  now _                   := (0, ())
  systemNow _             := (0, ())
  sleep _ _               := ()
  errorText _             := []

/-- The fifth argument is the ledger. -/
theorem ledgerOf_commandLine (configPath : String) (ledger : UInt32) :
    ledgerOf (config.commandLine configPath ledger) = ledger := by
  have harg : (config.commandLine configPath ledger)[4]? = some (String.ofList (Nat.toDigits 10 ledger.toNat ++ [])) := rfl
  rw [ledgerOf, harg, Option.getD_some, String.toList_ofList, List.append_nil, Nat.ofDigitChars_ten_toDigits, UInt32.ofNat_toNat]

theorem spawned : Spawned os config frameFor := by
  intro configPath ledger piped world child stdout world' hspawn
  obtain ⟨hpair, -⟩ := Prod.mk.inj hspawn
  obtain ⟨-, rfl⟩ := Prod.mk.inj (Except.ok.inj hpair)
  refine ⟨?_, fun _ _ _ _ hconnect => nomatch (Prod.mk.inj hconnect).1⟩
  rintro stream heq
  obtain rfl := Option.some.inj heq
  rw [ledgerOf_commandLine]
  refine ⟨1, ledger.toNat_lt, [], ?_⟩
  rw [List.append_nil, List.range'_one, List.flatMap_singleton, UInt32.ofNat_toNat, framed, frameFor, length_toBigEndian]
  rfl

theorem decodes : Decodes out frameFor := by
  refine ⟨fun ledger => ?_, fun ledger => ⟨_, rfl, ?_⟩⟩
  · rw [Fits, frameFor, length_toBigEndian]
    decide
  · have hsmall : ledger.toNat < 256 ^ 4 := ledger.toNat_lt
    show some (UInt32.ofNat (ofBigEndian (toBigEndian 4 ledger.toNat))) = some ledger
    rw [ofBigEndian_toBigEndian hsmall, UInt32.ofNat_toNat]

theorem remote_serves : RemoteServes (backed os config out) := by
  intro ledger fallback fetched fallback' h
  obtain ⟨hfetched, -⟩ := Prod.mk.inj h
  obtain rfl := Except.ok.inj hfetched
  rfl

/-- The ingestor, started at ledger 41. -/
def started : CaptiveCoreIngestor (TokioCaptiveCoreBackend Unit Unit) Unit Unit :=
  (start (backed os config out) config.supervisor (new (backed os config out) config.supervisor (.new ()) () ())).2

/-- The results of five turns. -/
def session : List (Except SdkError (IngestedLedger UInt32)) :=
  (run (step (backed os config out) config.supervisor) ⟨started, []⟩ [(), (), (), (), ()]).returned

theorem slow_session_gapless : Gapless config.supervisor session :=
  session_gapless os config frameFor out spawned decodes remote_serves (.new ()) () () rfl _

example : delivered session = [some 41, some 42, some 43] := by
  decide +kernel

end SlowCore

end XlmNs.Ingestion
