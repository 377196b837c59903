import XlmNs.Ingestion.Supervisor

/-!
# `Ingestion.Correctness.Gapless` — does the ingestor lose or repeat a ledger?

What is due next is the start ledger plus the number handed out, and that is where the core is started and what the
remote source is asked for. A started core streams on by itself, so it stays in step only if every frame taken from it
is handed out. One that the decoder rejects is not. `gapless_iff`: the ledgers handed out are `start_ledger`,
`start_ledger + 1`, …, exactly when no frame is accepted after a rejected one of the same stream.

## Contents
- `Turned`, `turn_spec`: what one turn of the loop can do.
- `CoreFeeds`, `RemoteServes`: what is assumed of the two sources.
- `gapless_iff`: whole sessions.
- a session that loses a ledger.
-/

namespace XlmNs.Ingestion

open Soroban

variable {B R χ T ε : Type} {out : Outside B R χ T ε} {config : CaptiveCoreConfig}
variable {s s' : CaptiveCoreIngestor B R χ}

/-! ## What one turn can do -/

/-- The frame the next turn takes from the core, if it takes one. -/
def frameRead (out : Outside B R χ T ε) (config : CaptiveCoreConfig) (s : CaptiveCoreIngestor B R χ) :
    Option Bytes :=
  match s.activeSource with
  | .remote      => none
  | .captiveCore =>
      if (out.isRunning s.primary).1 = false then none
      else (out.nextFrame config.heartbeatTimeout (out.isRunning s.primary).2).1.toOption

/-- The core was started at the ledger that is due. -/
def StartedAtDue (out : Outside B R χ T ε) (config : CaptiveCoreConfig) (s : CaptiveCoreIngestor B R χ)
    (primary' : B) : Prop :=
  ∃ primary, out.start (nextStartLedger config s) config.renderedToml primary = (.ok (), primary')

/-- **What one turn of the loop can do.** -/
inductive Turned (out : Outside B R χ T ε) (config : CaptiveCoreConfig) (s : CaptiveCoreIngestor B R χ) :
    Flow ε T → CaptiveCoreIngestor B R χ → Prop
  /-- a frame is taken and handed out -/
  | accepted {frame : Bytes} {payload : T} {s' : CaptiveCoreIngestor B R χ}
      (hread : frameRead out config s = some frame) (hdecoded : out.decoder frame = .ok payload)
      (hframe : out.nextFrame config.heartbeatTimeout (out.isRunning s.primary).2 = (.ok frame, s'.primary))
      (hactive : s.activeSource = .captiveCore)
      (hlast : s'.lastProcessedLedger
        = (out.sequenceExtractor payload).orElse fun _ => s.lastProcessedLedger) :
      Turned out config s (.done (.ok ⟨payload, frame, out.sequenceExtractor payload, .captiveCore⟩)) s'
  /-- a frame is taken, and the decoder rejects it -/
  | rejected {frame : Bytes} {e : ε} {s' : CaptiveCoreIngestor B R χ}
      (hread : frameRead out config s = some frame) (hdecoded : out.decoder frame = .error e)
      (hframe : out.nextFrame config.heartbeatTimeout (out.isRunning s.primary).2 = (.ok frame, s'.primary))
      (hactive : s.activeSource = .captiveCore) (hlast : s'.lastProcessedLedger = s.lastProcessedLedger) :
      Turned out config s (.done (.error e)) s'
  /-- nothing is handed out, and if the core is active then it has just been started -/
  | recovered {flow : Flow ε T} {s' : CaptiveCoreIngestor B R χ}
      (hread : frameRead out config s = none) (hflow : ∀ ledger, flow ≠ .done (.ok ledger))
      (hlast : s'.lastProcessedLedger = s.lastProcessedLedger)
      (hstarted : s'.activeSource = .captiveCore → StartedAtDue out config s s'.primary) :
      Turned out config s flow s'
  /-- the remote source is asked for the ledger that is due -/
  | served {ledger : IngestedLedger T} {fallback' : R} {s' : CaptiveCoreIngestor B R χ}
      (hread : frameRead out config s = none)
      (hfetched : out.nextFrom (nextStartLedger config s) s.fallback = (.ok ledger, fallback'))
      (hlast : s'.lastProcessedLedger = ledger.ledgerSequence.orElse fun _ => s.lastProcessedLedger)
      (hremote : s'.activeSource = .remote) :
      Turned out config s (.done (.ok { ledger with source := .remote })) s'

theorem nextStartLedger_congr (h : s'.lastProcessedLedger = s.lastProcessedLedger) :
    nextStartLedger config s' = nextStartLedger config s := by
  unfold nextStartLedger
  rw [h]

/-- Starting the core touches nothing but the core. -/
theorem startPrimary_spec {started : Except ε Unit} (h : startPrimary out config s = (started, s')) :
    s'.lastProcessedLedger = s.lastProcessedLedger ∧ s'.activeSource = s.activeSource ∧
      s'.fallback = s.fallback ∧
      out.start (nextStartLedger config s) config.renderedToml s.primary = (started, s'.primary) := by
  obtain ⟨rfl, rfl⟩ := Prod.mk.inj h
  exact ⟨rfl, rfl, rfl, rfl⟩

/-- The restart loop hands nothing out; it ends with the core started, or with the source it began with. -/
theorem restartLoop_spec {attempts : Nat} {restarted : Bool}
    (h : restartLoop out config attempts s = (restarted, s')) :
    s'.lastProcessedLedger = s.lastProcessedLedger ∧
      (restarted = true → StartedAtDue out config s s'.primary) ∧
      (restarted = false → s'.activeSource = s.activeSource) := by
  induction attempts generalizing s with
  | zero =>
      obtain ⟨rfl, rfl⟩ := Prod.mk.inj h
      exact ⟨rfl, nofun, fun _ => rfl⟩
  | succ attempts ih =>
      unfold restartLoop at h
      dsimp only at h
      split at h
      · -- the attempt succeeded
        rename_i u hstart
        obtain ⟨hlast, _, _, hstarted⟩ := startPrimary_spec hstart
        obtain ⟨rfl, rfl⟩ := Prod.mk.inj h
        exact ⟨hlast, fun _ => ⟨s.primary, hstarted⟩, nofun⟩
      · rename_i e u hstart
        obtain ⟨hlast, hsource, _, _⟩ := startPrimary_spec hstart
        obtain ⟨hlast', hstarted, hsame⟩ := ih h
        refine ⟨hlast'.trans hlast, ?_, fun hno => (hsame hno).trans hsource⟩
        intro hyes
        have hdue : nextStartLedger config u = nextStartLedger config s := nextStartLedger_congr hlast
        rw [StartedAtDue, ← hdue]
        exact hstarted hyes

/-- A failure of the core hands nothing out; the core is active after it only if it was started again. -/
theorem handlePrimaryFailure_spec {reason : Bytes} {r : Except ε Unit}
    (h : handlePrimaryFailure out config reason s = (r, s')) :
    s'.lastProcessedLedger = s.lastProcessedLedger ∧
      (s'.activeSource = .captiveCore → StartedAtDue out config s s'.primary) := by
  obtain ⟨u, hremote, hlast, _, _, _, hrest⟩ := handlePrimaryFailure_cases h
  have hdue : nextStartLedger config u = nextStartLedger config s := nextStartLedger_congr hlast
  rcases hrest with ⟨_, _, rfl⟩ | ⟨_, hloop⟩ | ⟨_, v, hloop, rfl⟩
  · -- the archive failed: the remote source stays active
    refine ⟨hlast, ?_⟩
    intro hactive
    cases hremote.symm.trans hactive
  · obtain ⟨hlast', hstarted, _⟩ := restartLoop_spec hloop
    refine ⟨hlast'.trans hlast, fun _ => ?_⟩
    rw [StartedAtDue, ← hdue]
    exact hstarted rfl
  · obtain ⟨hlast', _, hsame⟩ := restartLoop_spec hloop
    refine ⟨hlast'.trans hlast, ?_⟩
    intro hactive
    cases (hremote.symm.trans (hsame rfl).symm).trans hactive

theorem recover_spec {reason : Bytes} {u : CaptiveCoreIngestor B R χ} {flow : Flow ε T}
    (h : recover out config reason u = (flow, s')) (hread : frameRead out config s = none)
    (hlast : u.lastProcessedLedger = s.lastProcessedLedger) : Turned out config s flow s' := by
  unfold recover at h
  split at h
  · rename_i hfailure
    obtain ⟨rfl, rfl⟩ := Prod.mk.inj h
    obtain ⟨hlast', hstarted⟩ := handlePrimaryFailure_spec hfailure
    refine .recovered hread nofun (hlast'.trans hlast) ?_
    intro hactive
    rw [StartedAtDue, ← nextStartLedger_congr hlast]
    exact hstarted hactive
  · rename_i hfailure
    obtain ⟨rfl, rfl⟩ := Prod.mk.inj h
    obtain ⟨hlast', hstarted⟩ := handlePrimaryFailure_spec hfailure
    refine .recovered hread nofun (hlast'.trans hlast) ?_
    intro hactive
    rw [StartedAtDue, ← nextStartLedger_congr hlast]
    exact hstarted hactive

theorem captiveTurn_spec {flow : Flow ε T} (hactive : s.activeSource = .captiveCore)
    (h : captiveTurn out config s = (flow, s')) : Turned out config s flow s' := by
  unfold captiveTurn at h
  dsimp only at h
  split at h
  · rename_i hstopped
    have hread : frameRead out config s = none := by
      unfold frameRead
      rw [hactive]
      exact if_pos hstopped
    exact recover_spec h hread rfl
  · rename_i hrunning
    have hread : frameRead out config s
        = (out.nextFrame config.heartbeatTimeout (out.isRunning s.primary).2).1.toOption := by
      unfold frameRead
      rw [hactive]
      exact if_neg hrunning
    split at h
    · rename_i frame hframe
      rw [hframe] at hread
      unfold receiveFrame at h
      split at h
      · rename_i e hdecoded
        obtain ⟨rfl, rfl⟩ := Prod.mk.inj h
        exact .rejected hread hdecoded (Prod.ext hframe rfl) hactive rfl
      · rename_i payload hdecoded
        obtain ⟨rfl, rfl⟩ := Prod.mk.inj h
        exact .accepted hread hdecoded (Prod.ext hframe rfl) hactive rfl
    · rename_i e hframe
      rw [hframe] at hread
      exact recover_spec h hread rfl

theorem fetchRemote_spec {u : CaptiveCoreIngestor B R χ} {flow : Flow ε T}
    (h : fetchRemote out config u = (flow, s')) (hread : frameRead out config s = none)
    (hlast : u.lastProcessedLedger = s.lastProcessedLedger) (hfallback : u.fallback = s.fallback)
    (hremote : u.activeSource = .remote) : Turned out config s flow s' := by
  unfold fetchRemote at h
  dsimp only at h
  split at h
  · obtain ⟨rfl, rfl⟩ := Prod.mk.inj h
    refine .recovered hread nofun hlast ?_
    intro hactive
    cases hremote.symm.trans hactive
  · rename_i ledger hfetched
    obtain ⟨rfl, rfl⟩ := Prod.mk.inj h
    rw [nextStartLedger_congr hlast, hfallback] at hfetched
    refine .served hread (Prod.ext hfetched rfl) ?_ rfl
    show (ledger.ledgerSequence.orElse fun _ => u.lastProcessedLedger) = _
    rw [hlast]

theorem remoteTurn_spec {flow : Flow ε T} (hremote : s.activeSource = .remote)
    (h : remoteTurn out config s = (flow, s')) : Turned out config s flow s' := by
  have hread : frameRead out config s = none := by
    unfold frameRead
    rw [hremote]
  unfold remoteTurn at h
  dsimp only at h
  split at h
  · split at h
    · -- the core is up again
      rename_i u hstart
      obtain ⟨hlast, _, _, hstarted⟩ := startPrimary_spec hstart
      obtain ⟨rfl, rfl⟩ := Prod.mk.inj h
      exact .recovered hread nofun hlast fun _ => ⟨s.primary, hstarted⟩
    · rename_i e u hstart
      obtain ⟨hlast, hsource, hfallback, _⟩ := startPrimary_spec hstart
      exact fetchRemote_spec h hread hlast hfallback (hsource.trans hremote)
  · exact fetchRemote_spec h hread rfl rfl hremote

/-- **Every turn is one of the four.** -/
theorem turn_spec {flow : Flow ε T} (h : turn out config s = (flow, s')) : Turned out config s flow s' := by
  unfold turn at h
  split at h
  · rename_i hactive
    exact captiveTurn_spec hactive h
  · rename_i hremote
    exact remoteTurn_spec hremote h

/-! ## What is assumed of the two sources -/

/-- Once started at a ledger, the core yields the frames of that ledger and the ones after it, until some call errors.
    `Feeds b p` says that the next frame of `b` is the one of ledger `p`. -/
structure CoreFeeds (out : Outside B R χ T ε) (config : CaptiveCoreConfig) (Feeds : B → Nat → Prop) : Prop where
  started : ∀ {b b' : B} {ledger : UInt32},
    out.start ledger config.renderedToml b = (.ok (), b') → Feeds b' ledger.toNat
  polled : ∀ {b : B} {p : Nat}, Feeds b p → Feeds (out.isRunning b).2 p
  streamed : ∀ {b b' : B} {p : Nat} {frame : Bytes}, Feeds b p →
    out.nextFrame config.heartbeatTimeout b = (.ok frame, b') → Feeds b' (p + 1)
  /-- the sequence extractor finds the ledger in what the decoder makes of its frame -/
  sequence : ∀ {b b' : B} {p : Nat} {frame : Bytes} {payload : T}, Feeds b p →
    out.nextFrame config.heartbeatTimeout b = (.ok frame, b') → out.decoder frame = .ok payload →
    ∃ sequence, out.sequenceExtractor payload = some sequence ∧ sequence.toNat = p

/-- Asked for a ledger, the remote source returns that one, or an error. -/
def RemoteServes (out : Outside B R χ T ε) : Prop :=
  ∀ ledger fallback fetched fallback', out.nextFrom ledger fallback = (.ok fetched, fallback') →
    fetched.ledgerSequence = some ledger

/-! ## The property and the condition -/

/-- The sequence numbers of the ledgers handed out. -/
def delivered (returned : List (Except ε (IngestedLedger T))) : List (Option UInt32) :=
  returned.filterMap fun r => r.toOption.map IngestedLedger.ledgerSequence

/-- **No gap and no duplicate**: the ledgers handed out are the start ledger and the ones after it, below
    `u32::MAX`. -/
def Gapless (config : CaptiveCoreConfig) (returned : List (Except ε (IngestedLedger T))) : Prop :=
  ∀ i sequence, (delivered returned)[i]? = some sequence → config.startLedger.toNat + i < u32Max →
    sequence = some (UInt32.ofNat (config.startLedger.toNat + i))

/-- The ledger that is due. -/
def due (config : CaptiveCoreConfig) (s : Session B R χ T ε) : Nat :=
  config.startLedger.toNat + (delivered s.returned).length

/-- Note whether a frame of the stream being read has been rejected. A turn that takes no frame from the core leaves
    the stream: another begins when the core is started again. -/
def noteRejected (out : Outside B R χ T ε) (config : CaptiveCoreConfig) (s : Session B R χ T ε) (_ : Unit)
    (_ : Session B R χ T ε) (rejected : Bool) : Bool :=
  match frameRead out config s.ingestor with
  | none => false
  | some frame =>
      match out.decoder frame with
      | .ok _    => rejected
      | .error _ => true

/-- After a frame that was rejected, the decoder accepts none of the same stream. -/
def StaysRejected (out : Outside B R χ T ε) (config : CaptiveCoreConfig) (sr : Session B R χ T ε × Bool)
    (_ : Unit) : Prop :=
  due config sr.1 < u32Max → sr.2 = true →
    ∀ frame payload, frameRead out config sr.1.ingestor = some frame → out.decoder frame ≠ .ok payload

/-- A turn hands out the ledger that is due, if any. -/
def HandsOutDue (out : Outside B R χ T ε) (config : CaptiveCoreConfig) (s : Session B R χ T ε) (_ : Unit) : Prop :=
  ∀ ledger, (turn out config s.ingestor).1 = .done (.ok ledger) → due config s < u32Max →
    ledger.ledgerSequence = some (UInt32.ofNat (due config s))

/-! ## Gapless sessions, turn by turn -/

variable {ses : Session B R χ T ε}

theorem delivered_error (returned : List (Except ε (IngestedLedger T))) (e : ε) :
    delivered (returned ++ [.error e]) = delivered returned := by
  simp [delivered, Except.toOption]

theorem delivered_ok (returned : List (Except ε (IngestedLedger T))) (ledger : IngestedLedger T) :
    delivered (returned ++ [.ok ledger]) = delivered returned ++ [ledger.ledgerSequence] := by
  simp [delivered, Except.toOption]

/-- A turn keeps what was handed out, and adds one ledger at most. -/
theorem delivered_exec (out : Outside B R χ T ε) (config : CaptiveCoreConfig) (ses : Session B R χ T ε) :
    ((∀ ledger, (turn out config ses.ingestor).1 ≠ .done (.ok ledger)) ∧
      delivered (exec (step out config) ses ()).returned = delivered ses.returned) ∨
    ∃ ledger, (turn out config ses.ingestor).1 = .done (.ok ledger) ∧
      delivered (exec (step out config) ses ()).returned
        = delivered ses.returned ++ [ledger.ledgerSequence] := by
  cases hturn : turn out config ses.ingestor with
  | mk flow ingestor =>
      cases flow with
      | next =>
          rw [exec_next hturn]
          exact Or.inl ⟨nofun, rfl⟩
      | done r =>
          rw [exec_done hturn]
          cases r with
          | error e => exact Or.inl ⟨nofun, delivered_error _ _⟩
          | ok ledger => exact Or.inr ⟨ledger, rfl, delivered_ok _ _⟩

/-- One turn keeps a session gapless iff it hands out the ledger that is due. -/
theorem gapless_exec_iff (ses : Session B R χ T ε) :
    Gapless config (exec (step out config) ses ()).returned ↔
      Gapless config ses.returned ∧ HandsOutDue out config ses () := by
  unfold Gapless HandsOutDue due
  rcases delivered_exec out config ses with ⟨hnone, hsame⟩ | ⟨ledger, hdone, hnew⟩
  · rw [hsame]
    exact (and_iff_left fun ledger hdone => absurd hdone (hnone ledger)).symm
  · rw [hnew]
    constructor
    · intro h
      refine ⟨?_, ?_⟩
      · intro i sequence hi
        exact h i sequence (List.getElem?_append_left (List.getElem?_eq_some_iff.mp hi).1 ▸ hi)
      · intro ledger' hdone' hbelow
        obtain rfl : ledger = ledger' := by
          injection hdone.symm.trans hdone' with hok
          injection hok
        exact h _ _ List.getElem?_concat_length hbelow
    · rintro ⟨hbefore, hdue⟩ i sequence hi hbelow
      rcases Nat.lt_or_ge i (delivered ses.returned).length with hlt | hge
      · rw [List.getElem?_append_left hlt] at hi
        exact hbefore i sequence hi hbelow
      · have hlast : i = (delivered ses.returned).length := by
          have := (List.getElem?_eq_some_iff.mp hi).1
          rw [List.length_append, List.length_singleton] at this
          omega
        subst hlast
        obtain rfl := Option.some.inj (List.getElem?_concat_length.symm.trans hi)
        exact hdue ledger hdone hbelow

/-- **A session is gapless iff each of its turns hands out the ledger that is due**, if any. -/
theorem gapless_run_iff (turns : List Unit) (ses : Session B R χ T ε) :
    Gapless config (run (step out config) ses turns).returned ↔
      Gapless config ses.returned ∧ Along (step out config) (HandsOutDue out config) ses turns := by
  induction turns generalizing ses with
  | nil => exact (and_iff_left trivial).symm
  | cons u turns ih =>
      rw [run_cons, ih, along_cons, gapless_exec_iff, and_assoc]

/-! ## The core in step with what is due -/

/-- What is due is where the next start begins, and while the core is active its stream is there too, or past it if
    a frame has been rejected. -/
structure InStep (config : CaptiveCoreConfig) (Feeds : B → Nat → Prop) (ses : Session B R χ T ε)
    (rejected : Bool) : Prop where
  next   : (nextStartLedger config ses.ingestor).toNat = due config ses
  stream : ses.ingestor.activeSource = .captiveCore → ∃ p, Feeds ses.ingestor.primary p ∧
    due config ses ≤ p ∧ (rejected = true → due config ses < p) ∧ (rejected = false → p = due config ses)

/-- The ledger after the one just handed out is due next. -/
theorem next_of_delivered {ledger : UInt32} (hlast : s.lastProcessedLedger = some ledger)
    (hbelow : ledger.toNat < u32Max) : (nextStartLedger config s).toNat = ledger.toNat + 1 := by
  have hone : (1 : UInt32).toNat = 1 := rfl
  unfold nextStartLedger
  rw [hlast]
  show (saturatingAdd32 ledger 1).toNat = _
  rw [toNat_saturatingAdd32, hone]
  omega

/-- **One turn, exactly**: in step, it hands out what is due iff it accepts nothing after a rejected frame. -/
theorem handsOutDue_iff {Feeds : B → Nat → Prop} (hcore : CoreFeeds out config Feeds)
    (hremote : RemoteServes out) {rejected : Bool} (u : Unit)
    (h : due config ses < u32Max → InStep config Feeds ses rejected) :
    HandsOutDue out config ses u ↔ StaysRejected out config (ses, rejected) u := by
  unfold HandsOutDue StaysRejected
  cases hturn : turn out config ses.ingestor with
  | mk flow ingestor =>
      cases turn_spec hturn with
      | @accepted frame payload _ hread hdecoded hframe hactive hlast =>
          rw [hread]
          constructor
          · -- past what is due, the ledger handed out is another one
            intro hdue hbelow hrejected frame' payload' hframe' hdecoded'
            obtain ⟨p, hfeeds, _, hpast, _⟩ := (h hbelow).stream hactive
            obtain ⟨sequence, hsequence, rfl⟩ := hcore.sequence (hcore.polled hfeeds) hframe hdecoded
            have hsame : out.sequenceExtractor payload = some (UInt32.ofNat (due config ses)) :=
              hdue _ rfl hbelow
            obtain rfl := Option.some.inj (hsequence.symm.trans hsame)
            have hlt := hpast hrejected
            have hsmall : u32Max < UInt32.size := by decide
            rw [UInt32.toNat_ofNat_of_lt' (Nat.lt_trans hbelow hsmall)] at hlt
            exact Nat.lt_irrefl _ hlt
          · intro hstays ledger hledger hbelow
            obtain rfl : _ = ledger := by
              injection hledger with hok
              injection hok
            obtain ⟨p, hfeeds, _, _, hin⟩ := (h hbelow).stream hactive
            obtain ⟨sequence, hsequence, hp⟩ := hcore.sequence (hcore.polled hfeeds) hframe hdecoded
            have hclean : rejected = false := by
              cases rejected with
              | false => rfl
              | true => exact absurd hdecoded (hstays hbelow rfl frame payload rfl)
            show out.sequenceExtractor payload = _
            rw [hsequence, ← hin hclean, ← hp, UInt32.ofNat_toNat]
      | rejected hread hdecoded hframe hactive hlast =>
          refine iff_of_true nofun ?_
          intro _ _ frame payload hframe' hdecoded'
          obtain rfl := Option.some.inj (hread.symm.trans hframe')
          cases hdecoded.symm.trans hdecoded'
      | recovered hread hflow hlast hstarted =>
          refine iff_of_true (fun ledger hledger => absurd hledger (hflow ledger)) ?_
          intro _ _ frame payload hframe'
          cases hread.symm.trans hframe'
      | @served ledger _ _ hread hfetched hlast hsource =>
          refine iff_of_true ?_ ?_
          · intro ledger' hledger hbelow
            obtain rfl : _ = ledger' := by
              injection hledger with hok
              injection hok
            show ledger.ledgerSequence = _
            rw [hremote _ _ _ _ hfetched, ← (h hbelow).next, UInt32.ofNat_toNat]
          · intro _ _ frame payload hframe'
            cases hread.symm.trans hframe'

theorem due_error (ingestor : CaptiveCoreIngestor B R χ) (returned : List (Except ε (IngestedLedger T))) (e : ε) :
    due config ⟨ingestor, returned ++ [.error e]⟩ = config.startLedger.toNat + (delivered returned).length := by
  unfold due
  rw [delivered_error]

theorem due_ok (ingestor : CaptiveCoreIngestor B R χ) (returned : List (Except ε (IngestedLedger T)))
    (ledger : IngestedLedger T) :
    due config ⟨ingestor, returned ++ [.ok ledger]⟩
      = config.startLedger.toNat + (delivered returned).length + 1 := by
  unfold due
  rw [delivered_ok, List.length_append, List.length_singleton, Nat.add_assoc]

/-- A turn that hands nothing out leaves what is due. -/
theorem due_exec_same {flow : Flow ε T} (hturn : turn out config ses.ingestor = (flow, s'))
    (hflow : ∀ ledger, flow ≠ .done (.ok ledger)) :
    due config (exec (step out config) ses ()) = due config ses ∧
      (exec (step out config) ses ()).ingestor = s' := by
  cases flow with
  | next =>
      rw [exec_next hturn]
      exact ⟨rfl, rfl⟩
  | done r =>
      rw [exec_done hturn]
      cases r with
      | error e => exact ⟨due_error _ _ _, rfl⟩
      | ok ledger => exact absurd rfl (hflow ledger)

theorem note_accepted {ses' : Session B R χ T ε} {frame : Bytes} {payload : T} (rejected : Bool)
    (hread : frameRead out config ses.ingestor = some frame) (hdecoded : out.decoder frame = .ok payload) :
    noteRejected out config ses () ses' rejected = rejected := by
  simp [noteRejected, hread, hdecoded]

theorem note_rejected {ses' : Session B R χ T ε} {frame : Bytes} {e : ε} (rejected : Bool)
    (hread : frameRead out config ses.ingestor = some frame) (hdecoded : out.decoder frame = .error e) :
    noteRejected out config ses () ses' rejected = true := by
  simp [noteRejected, hread, hdecoded]

theorem note_unread {ses' : Session B R χ T ε} (rejected : Bool) (hread : frameRead out config ses.ingestor = none) :
    noteRejected out config ses () ses' rejected = false := by
  simp [noteRejected, hread]

/-- **A turn that hands out what is due, if anything, keeps the core in step.** -/
theorem inStep_turn {Feeds : B → Nat → Prop} (hcore : CoreFeeds out config Feeds) (hremote : RemoteServes out)
    {rejected : Bool} (h : due config ses ≤ u32Max → InStep config Feeds ses rejected)
    (hdue : HandsOutDue out config ses ()) (hbelow : due config (exec (step out config) ses ()) ≤ u32Max) :
    InStep config Feeds (exec (step out config) ses ())
      (noteRejected out config ses () (exec (step out config) ses ()) rejected) := by
  cases hturn : turn out config ses.ingestor with
  | mk flow ingestor =>
      unfold HandsOutDue at hdue
      rw [hturn] at hdue
      cases turn_spec hturn with
      | @accepted frame payload _ hread hdecoded hframe hactive hlast =>
          rw [exec_done hturn] at hbelow ⊢
          rw [due_ok] at hbelow
          have hlt : due config ses < u32Max := hbelow
          obtain ⟨p, hfeeds, hle, hpast, hin⟩ := (h (Nat.le_of_lt hlt)).stream hactive
          have hsequence : out.sequenceExtractor payload = some (UInt32.ofNat (due config ses)) := hdue _ rfl hlt
          have hnat : (UInt32.ofNat (due config ses)).toNat = due config ses := by
            have hsmall : u32Max < UInt32.size := by decide
            exact UInt32.toNat_ofNat_of_lt' (Nat.lt_trans hlt hsmall)
          rw [hsequence] at hlast
          refine ⟨?_, ?_⟩
          · rw [due_ok, next_of_delivered hlast (by rw [hnat]; exact hlt), hnat]
            rfl
          · intro _
            rw [note_accepted rejected hread hdecoded, due_ok]
            refine ⟨p + 1, hcore.streamed (hcore.polled hfeeds) hframe, Nat.succ_le_succ hle, ?_, ?_⟩
            · exact fun hyes => Nat.succ_lt_succ (hpast hyes)
            · exact fun hno => congrArg (· + 1) (hin hno)
      | @rejected frame e _ hread hdecoded hframe hactive hlast =>
          obtain ⟨hsame, hingestor⟩ := due_exec_same hturn nofun
          rw [hsame] at hbelow
          obtain ⟨p, hfeeds, hle, _, _⟩ := (h hbelow).stream hactive
          refine ⟨?_, ?_⟩
          · rw [hsame, hingestor, nextStartLedger_congr hlast]
            exact (h hbelow).next
          · intro _
            rw [hsame, hingestor, note_rejected rejected hread hdecoded]
            -- the stream has moved on, what is due has not
            exact ⟨p + 1, hcore.streamed (hcore.polled hfeeds) hframe, Nat.le_trans hle (Nat.le_succ p),
              fun _ => Nat.lt_succ_of_le hle, nofun⟩
      | recovered hread hflow hlast hstarted =>
          obtain ⟨hsame, hingestor⟩ := due_exec_same hturn hflow
          rw [hsame] at hbelow
          have hnext := (h hbelow).next
          refine ⟨?_, ?_⟩
          · rw [hsame, hingestor, nextStartLedger_congr hlast]
            exact hnext
          · intro hactive
            rw [hingestor] at hactive ⊢
            rw [hsame, note_unread rejected hread]
            obtain ⟨primary, hstart⟩ := hstarted hactive
            exact ⟨_, hcore.started hstart, Nat.le_of_eq hnext.symm, nofun, fun _ => hnext⟩
      | @served ledger _ _ hread hfetched hlast hsource =>
          rw [exec_done hturn] at hbelow ⊢
          rw [due_ok] at hbelow
          have hlt : due config ses < u32Max := hbelow
          have hnext := (h (Nat.le_of_lt hlt)).next
          rw [hremote _ _ _ _ hfetched] at hlast
          refine ⟨?_, ?_⟩
          · rw [due_ok, next_of_delivered hlast (by rw [hnext]; exact hlt), hnext]
            rfl
          · intro hactive
            cases hsource.symm.trans hactive

/-! ## Whole sessions -/

/-- A new ingestor begins at the start ledger. -/
theorem next_new (primary : B) (fallback : R) (clock : χ) :
    nextStartLedger config (new out config primary fallback clock) = config.startLedger := by
  unfold nextStartLedger new
  by_cases hzero : config.startLedger = 0
  · simp only [hzero, if_true]
  · simp only [hzero, if_false]
    have hmax := config.startLedger.toNat_lt
    have hone : (1 : UInt32).toNat = 1 := rfl
    have hnat : config.startLedger.toNat ≠ 0 := fun h => hzero (UInt32.toNat.inj h)
    have hpos : 1 ≤ config.startLedger := by
      rw [UInt32.le_iff_toNat_le, hone]
      omega
    apply UInt32.toNat.inj
    rw [toNat_saturatingAdd32, UInt32.toNat_sub_of_le _ _ hpos, hone, u32Max, UInt32.size]
    omega

theorem step_total (ses : Session B R χ T ε) (u : Unit) :
    step out config ses u = .ok (exec (step out config) ses u) := by
  rcases exec_cases (step out config) ses u with hok | ⟨⟨e, _⟩, _⟩
  · exact hok
  · cases e

/-- **The ledgers handed out are the start ledger and the ones after it, without gap or duplicate, iff no frame is
    accepted after a rejected one of the same stream.** -/
theorem gapless_iff {Feeds : B → Nat → Prop} (hcore : CoreFeeds out config Feeds) (hremote : RemoteServes out)
    {primary : B} {fallback : R} {clock : χ}
    (hstart : start out config (new out config primary fallback clock) = (.ok (), s)) (turns : List Unit) :
    Gapless config (run (step out config) ⟨s, []⟩ turns).returned ↔
      Along (withHistory (step out config) (noteRejected out config)) (StaysRejected out config)
        (⟨s, []⟩, false) turns := by
  let ses : Session B R χ T ε := ⟨s, []⟩
  have hnil : Gapless config ses.returned := nofun
  have hinit : InStep config Feeds ses false := by
    obtain ⟨hlast, _, _, hstarted⟩ := startPrimary_spec hstart
    have hnext : nextStartLedger config s = config.startLedger :=
      (nextStartLedger_congr hlast).trans (next_new primary fallback clock)
    refine ⟨congrArg UInt32.toNat hnext, fun _ => ?_⟩
    rw [next_new] at hstarted
    exact ⟨_, hcore.started hstarted, Nat.le_refl _, nofun, fun _ => rfl⟩
  have hwatched : Along (withHistory (step out config) (noteRejected out config))
      (fun sr u => HandsOutDue out config sr.1 u) (ses, false) turns ↔
        Along (step out config) (HandsOutDue out config) ses turns := along_withHistory
  rw [gapless_run_iff, and_iff_right hnil, ← hwatched]
  refine along_iff (I := fun sr => due config sr.1 ≤ u32Max → InStep config Feeds sr.1 sr.2) ?_ ?_ fun _ => hinit
  · rintro ⟨ses, rejected⟩ u h
    exact handsOutDue_iff hcore hremote u fun hbelow => h (Nat.le_of_lt hbelow)
  · rintro ⟨ses, rejected⟩ u h hdue
    rw [exec_ok (withHistory_eq_ok.mpr ⟨step_total ses u, rfl⟩)]
    exact inStep_turn hcore hremote h hdue

/-! ## A frame the decoder rejects -/

namespace RejectedFrame

/-- A core that streams without end, once started. -/
structure Core where
  running : Bool
  next    : Nat

/-- The sequence number as four bytes. -/
def frameOf (sequence : Nat) : Bytes :=
  [UInt8.ofNat (sequence / 16777216), UInt8.ofNat (sequence / 65536), UInt8.ofNat (sequence / 256),
    UInt8.ofNat sequence]

/-- Reads the sequence number back, except for ledger 2, which it cannot decode. -/
def decode : Bytes → Except Unit UInt32
  | [b0, b1, b2, b3] =>
      let sequence := ((b0.toNat * 256 + b1.toNat) * 256 + b2.toNat) * 256 + b3.toNat
      if sequence = 2 then .error () else .ok (UInt32.ofNat sequence)
  | _ => .error ()

/-- A core that writes one frame for each ledger, and a remote source that has them all. -/
def outside : Outside Core Unit Unit UInt32 Unit where
  start ledger _ _ := (.ok (), ⟨true, ledger.toNat⟩)
  nextFrame _ core :=
    if core.running = true ∧ core.next < UInt32.size then
      (.ok (frameOf core.next), { core with next := core.next + 1 })
    else (.error (), core)
  archiveState _ core := (.ok none, core)
  stop core := (.ok (), { core with running := false })
  isRunning core := (core.running, core)
  nextFrom ledger _ := (.ok ⟨ledger, frameOf ledger.toNat, some ledger, .remote⟩, ())
  decoder := decode
  sequenceExtractor payload := some payload
  now _ := (0, ())
  systemNow _ := (0, ())
  sleep _ _ := ()
  errorText _ := []

/-- A configuration that starts at the given ledger. -/
def configFrom (startLedger : UInt32) : CaptiveCoreConfig := ⟨ascii "archive", startLedger, 15, 5, 3, []⟩

/-- What the core streams decodes to the ledgers in order, as far as it decodes. -/
theorem core_feeds (startLedger : UInt32) :
    CoreFeeds outside (configFrom startLedger) fun core p => core.running = true ∧ core.next = p := by
  refine ⟨?_, fun h => h, ?_, ?_⟩
  · rintro b b' ledger h
    obtain ⟨_, rfl⟩ := Prod.mk.inj h
    exact ⟨rfl, rfl⟩
  · rintro b b' p frame ⟨hrunning, rfl⟩ h
    simp only [outside] at h
    split at h
    · obtain ⟨_, rfl⟩ := Prod.mk.inj h
      exact ⟨hrunning, rfl⟩
    · cases (Prod.mk.inj h).1
  · rintro b b' p frame payload ⟨_, rfl⟩ h hdecoded
    simp only [outside] at h hdecoded
    split at h
    · rename_i hfits
      obtain ⟨hframe, _⟩ := Prod.mk.inj h
      obtain rfl := Except.ok.inj hframe
      refine ⟨payload, rfl, ?_⟩
      have hsize : b.next < 4294967296 := hfits.2
      simp only [decode, frameOf, UInt8.toNat_ofNat'] at hdecoded
      split at hdecoded
      · cases hdecoded
      · obtain rfl := Except.ok.inj hdecoded
        rw [UInt32.toNat_ofNat_of_lt' (by simp only [UInt32.size]; omega)]
        omega
    · cases (Prod.mk.inj h).1

theorem remote_serves : RemoteServes outside := by
  intro ledger fallback fetched fallback' h
  obtain ⟨hfetched, _⟩ := Prod.mk.inj h
  obtain rfl := Except.ok.inj hfetched
  rfl

/-- The ingestor after `start`, at this ledger. -/
def started (startLedger : UInt32) : CaptiveCoreIngestor Core Unit Unit :=
  (start outside (configFrom startLedger) (new outside (configFrom startLedger) ⟨false, 0⟩ () ())).2

/-- The results of three turns. -/
def session (startLedger : UInt32) : List (Except Unit (IngestedLedger UInt32)) :=
  (run (step outside (configFrom startLedger)) ⟨started startLedger, []⟩ [(), (), ()]).returned

/-- From ledger 41 on nothing is rejected, and nothing is missing. -/
theorem later_session_gapless : Gapless (configFrom 41) (session 41) := by
  refine (gapless_iff (core_feeds 41) remote_serves rfl [(), (), ()]).mpr ⟨?_, ?_, ?_, trivial⟩
  · exact fun _ h => absurd h (by decide)
  · exact fun _ h => absurd h (by decide)
  · exact fun _ h => absurd h (by decide)

/-- **Ingestion loses a ledger on the code**: the call that should have returned ledger 2 fails, and the next one
    returns ledger 3. -/
theorem ledger_lost : ¬ Gapless (configFrom 1) (session 1) := by
  intro hgapless
  have hsecond : (delivered (session 1))[1]? = some (some 3) := by decide
  exact absurd (hgapless 1 (some 3) hsecond (by decide)) (by decide)

end RejectedFrame

end XlmNs.Ingestion
