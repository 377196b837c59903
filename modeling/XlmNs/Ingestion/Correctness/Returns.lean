import Mathlib.Logic.Function.Iterate
import XlmNs.Ingestion.Supervisor

/-!
# `Ingestion.Correctness.Returns` — does a call of `next_ledger` come to an end?

The loop of `next_ledger` goes on after a restart of the core, after a failure that is given up on, and after a retry of
the core from the remote source. Restarts are counted and the count goes down only with a frame, so there are finitely
many; then a failure and a retry take turns, one clock reading each. The retry is put off by the backoff, and the clock is
read again at once: only if the backoff has not passed by then is the remote source asked. `next_ledger_returns_iff` says
what that takes of the clock and the backoff, for all cores.
-/

namespace XlmNs.Ingestion

open Soroban

variable {B R χ T ε : Type} {out : Outside B R χ T ε} {config : CaptiveCoreConfig}
variable {s s' : CaptiveCoreIngestor B R χ}

/-! ## The clock -/

/-- The clock an ingestor is given. -/
structure Clock (χ : Type) where
  now       : χ → Instant × χ
  systemNow : χ → Instant × χ
  sleep     : Duration → χ → χ

/-- The clock among the outside. -/
def Outside.clock (out : Outside B R χ T ε) : Clock χ := ⟨out.now, out.systemNow, out.sleep⟩

/-- **The clock never goes back, and a sleep takes at least as long as it should.** -/
structure Clock.Advances (clock : Clock χ) : Prop where
  forward : ∀ c, (clock.now c).1 ≤ (clock.now (clock.now c).2).1
  slept   : ∀ c duration, (clock.now c).1 + duration ≤ (clock.now (clock.sleep duration c)).1

/-- The clock after two readings: one when a failure is given up on, and the next when the loop looks whether a retry
    is due. -/
def Clock.round (clock : Clock χ) (c : χ) : χ := (clock.now (clock.now c).2).2

/-- The whole backoff passes between the two. -/
def Clock.DueAtOnce (clock : Clock χ) (backoff : Duration) (c : χ) : Prop :=
  (clock.now c).1 + backoff ≤ (clock.now (clock.now c).2).1

/-! ## Returning -/

/-- `next_ledger` returns within so many turns: no turn computes a retry time beyond the last `Instant`, where the
    addition would panic. -/
def ReturnsIn (out : Outside B R χ T ε) (config : CaptiveCoreConfig) (maxInstant : Instant) :
    Nat → CaptiveCoreIngestor B R χ → Prop
  | 0, _ => False
  | turns + 1, s =>
      (turn out config s).2.nextPrimaryRetryAt ≤ maxInstant ∧
        match turn out config s with
        | (.next, s)   => ReturnsIn out config maxInstant turns s
        | (.done _, _) => True

/-- **The call returns.** -/
def Returns (out : Outside B R χ T ε) (config : CaptiveCoreConfig) (maxInstant : Instant)
    (s : CaptiveCoreIngestor B R χ) : Prop :=
  ∃ turns, ReturnsIn out config maxInstant turns s

variable {maxInstant : Instant}

/-- A call that returns has a result. -/
theorem Returns.result (h : Returns out config maxInstant s) : ∃ turns result, nextLedger out config turns s = some result := by
  obtain ⟨turns, h⟩ := h
  refine ⟨turns, ?_⟩
  induction turns generalizing s with
  | zero => exact h.elim
  | succ turns ih =>
      obtain ⟨_, hrest⟩ := h
      unfold nextLedger
      cases hturn : turn out config s with
      | mk flow u =>
          rw [hturn] at hrest
          cases flow with
          | next => exact ih hrest
          | done r => exact ⟨(r, u), rfl⟩

theorem Returns.of_done {r : Except ε (IngestedLedger T)} (hturn : turn out config s = (.done r, s'))
    (hfits : s'.nextPrimaryRetryAt ≤ maxInstant) : Returns out config maxInstant s := by
  refine ⟨1, ?_⟩
  unfold ReturnsIn
  rw [hturn]
  exact ⟨hfits, trivial⟩

theorem Returns.of_next (hturn : turn out config s = (.next, s')) (hfits : s'.nextPrimaryRetryAt ≤ maxInstant)
    (h : Returns out config maxInstant s') : Returns out config maxInstant s := by
  obtain ⟨turns, h⟩ := h
  refine ⟨turns + 1, ?_⟩
  unfold ReturnsIn
  rw [hturn]
  exact ⟨hfits, h⟩

/-! ## What a turn leaves to do -/

/-- **How a turn goes on**, by the failures it counts and the clock it reads. -/
inductive Goes (out : Outside B R χ T ε) (config : CaptiveCoreConfig) (s : CaptiveCoreIngestor B R χ) :
    Flow ε T → CaptiveCoreIngestor B R χ → Prop
  /-- the call returns; the retry time is the old one, or one computed from a reading -/
  | returned {r : Except ε (IngestedLedger T)} {s' : CaptiveCoreIngestor B R χ}
      (hretry : s'.nextPrimaryRetryAt = s.nextPrimaryRetryAt ∨
        ∃ c, s'.nextPrimaryRetryAt = (out.now c).1 + config.restartBackoff) :
      Goes out config s (.done r) s'
  /-- the core failed, and was started again -/
  | restarted {s' : CaptiveCoreIngestor B R χ} (hwas : s.activeSource = .captiveCore)
      (hactive : s'.activeSource = .captiveCore)
      (hcounted : s.consecutiveRestartFailures.toNat < s'.consecutiveRestartFailures.toNat)
      (hmax : s'.consecutiveRestartFailures.toNat ≤ config.maxRestartAttempts.toNat)
      (hretry : s'.nextPrimaryRetryAt = s.nextPrimaryRetryAt) :
      Goes out config s .next s'
  /-- the core failed, and the attempts are used up -/
  | gaveUp {s' : CaptiveCoreIngestor B R χ} (c : χ) (hwas : s.activeSource = .captiveCore)
      (hremote : s'.activeSource = .remote)
      (hmax : config.maxRestartAttempts.toNat ≤ s'.consecutiveRestartFailures.toNat)
      (hread : config.maxRestartAttempts.toNat ≤ s.consecutiveRestartFailures.toNat → c = s.clock)
      (hclock : s'.clock = (out.now c).2)
      (hretry : s'.nextPrimaryRetryAt = (out.now c).1 + config.restartBackoff) :
      Goes out config s .next s'
  /-- the core was not active, a retry was due and started it -/
  | retried {s' : CaptiveCoreIngestor B R χ} (hremote : s.activeSource = .remote)
      (hdue : s.nextPrimaryRetryAt ≤ (out.now s.clock).1) (hactive : s'.activeSource = .captiveCore)
      (hcount : s'.consecutiveRestartFailures = s.consecutiveRestartFailures)
      (hclock : s'.clock = (out.now s.clock).2) (hretry : s'.nextPrimaryRetryAt = s.nextPrimaryRetryAt) :
      Goes out config s .next s'

/-- The restart loop counts its attempts, and uses all of them unless one succeeds. -/
theorem restartLoop_counts {attempts : Nat} {restarted : Bool}
    (h : restartLoop out config attempts s = (restarted, s'))
    (hroom : s.consecutiveRestartFailures.toNat + attempts ≤ u32Max) :
    s'.nextPrimaryRetryAt = s.nextPrimaryRetryAt ∧
      (restarted = true → s'.activeSource = .captiveCore ∧
        s.consecutiveRestartFailures.toNat < s'.consecutiveRestartFailures.toNat ∧
        s'.consecutiveRestartFailures.toNat ≤ s.consecutiveRestartFailures.toNat + attempts) ∧
      (restarted = false → s'.activeSource = s.activeSource ∧
        s'.consecutiveRestartFailures.toNat = s.consecutiveRestartFailures.toNat + attempts ∧
        (attempts = 0 → s'.clock = s.clock)) := by
  induction attempts generalizing s with
  | zero =>
      obtain ⟨rfl, rfl⟩ := Prod.mk.inj h
      refine ⟨rfl, ?_, fun _ => ⟨rfl, rfl, fun _ => rfl⟩⟩
      intro hrestarted
      cases hrestarted
  | succ attempts ih =>
      have hone : (s.consecutiveRestartFailures + 1).toNat = s.consecutiveRestartFailures.toNat + 1 := by
        rw [UInt32.toNat_add]
        simp only [u32Max, UInt32.size] at hroom
        exact Nat.mod_eq_of_lt (by show s.consecutiveRestartFailures.toNat + 1 < 4294967296; omega)
      unfold restartLoop at h
      dsimp only at h
      split at h
      · rename_i u hstart
        obtain ⟨_, rfl⟩ := Prod.mk.inj hstart
        obtain ⟨rfl, rfl⟩ := Prod.mk.inj h
        refine ⟨rfl, fun _ => ⟨rfl, ?_, ?_⟩, ?_⟩
        · show s.consecutiveRestartFailures.toNat < (s.consecutiveRestartFailures + 1).toNat
          omega
        · show (s.consecutiveRestartFailures + 1).toNat ≤ _
          omega
        · intro hfailed
          cases hfailed
      · rename_i e u hstart
        obtain ⟨_, rfl⟩ := Prod.mk.inj hstart
        have hroom' : (s.consecutiveRestartFailures + 1).toNat + attempts ≤ u32Max := by omega
        obtain ⟨hretry, hyes, hno⟩ := ih h hroom'
        refine ⟨hretry, ?_, ?_⟩
        · intro hrestarted
          obtain ⟨hactive, hmore, hle⟩ := hyes hrestarted
          simp only at hmore hle
          exact ⟨hactive, by omega, by omega⟩
        · intro hfailed
          obtain ⟨hactive, hcount, _⟩ := hno hfailed
          simp only at hcount
          refine ⟨hactive, by omega, ?_⟩
          intro hzero
          cases hzero

/-- A failure, from whatever was read off the core before. -/
theorem recover_goes {reason : Bytes} {u : CaptiveCoreIngestor B R χ} {flow : Flow ε T}
    (h : recover out config reason u = (flow, s')) (hwas : s.activeSource = .captiveCore)
    (hcount : u.consecutiveRestartFailures = s.consecutiveRestartFailures) (hclock : u.clock = s.clock)
    (hretry : u.nextPrimaryRetryAt = s.nextPrimaryRetryAt) : Goes out config s flow s' := by
  have hroom : s.consecutiveRestartFailures.toNat
      + (config.maxRestartAttempts.toNat - s.consecutiveRestartFailures.toNat) ≤ u32Max := by
    have hcurrent := toNat_le_u32Max s.consecutiveRestartFailures
    have hmax := toNat_le_u32Max config.maxRestartAttempts
    omega
  unfold recover at h
  split at h
  · rename_i hfailure
    obtain ⟨rfl, rfl⟩ := Prod.mk.inj h
    obtain ⟨v, hstopped, _, hcount', hretry', hclock', hrest⟩ := handlePrimaryFailure_cases hfailure
    have hfailures : v.consecutiveRestartFailures.toNat = s.consecutiveRestartFailures.toNat :=
      congrArg UInt32.toNat (hcount'.trans hcount)
    rw [hcount, ← hfailures] at hrest
    rw [← hfailures] at hroom
    rcases hrest with ⟨_, herror, _⟩ | ⟨_, hloop⟩ | ⟨_, v', hloop, rfl⟩
    · cases herror
    · obtain ⟨hsame, hyes, _⟩ := restartLoop_counts hloop hroom
      obtain ⟨hactive, hmore, hle⟩ := hyes rfl
      exact .restarted hwas hactive (by omega) (by omega) (hsame.trans (hretry'.trans hretry))
    · obtain ⟨_, _, hno⟩ := restartLoop_counts hloop hroom
      obtain ⟨hremote, hused, hread⟩ := hno rfl
      refine .gaveUp _ hwas (hremote.trans hstopped) ?_ ?_ rfl rfl
      · refine Nat.le_trans ?_ (Nat.le_of_eq hused.symm)
        omega
      · intro hspent
        exact (hread (by omega)).trans (hclock'.trans hclock)
  · rename_i hfailure
    obtain ⟨rfl, rfl⟩ := Prod.mk.inj h
    obtain ⟨v, _, _, _, hretry', _, ⟨_, _, rfl⟩ | ⟨hok, _⟩ | ⟨hok, _⟩⟩ := handlePrimaryFailure_cases hfailure
    · exact .returned (Or.inl (hretry'.trans hretry))
    · cases hok
    · cases hok

theorem captiveTurn_goes {flow : Flow ε T} (hwas : s.activeSource = .captiveCore)
    (h : captiveTurn out config s = (flow, s')) : Goes out config s flow s' := by
  unfold captiveTurn at h
  dsimp only at h
  split at h
  · exact recover_goes h hwas rfl rfl rfl
  · split at h
    · rename_i frame _
      unfold receiveFrame at h
      split at h
      · obtain ⟨rfl, rfl⟩ := Prod.mk.inj h
        exact .returned (Or.inl rfl)
      · obtain ⟨rfl, rfl⟩ := Prod.mk.inj h
        exact .returned (Or.inl rfl)
    · exact recover_goes h hwas rfl rfl rfl

/-- Once the remote source is asked the call returns. -/
theorem fetchRemote_returns {u : CaptiveCoreIngestor B R χ} {flow : Flow ε T}
    (h : fetchRemote out config u = (flow, s')) :
    (∃ r, flow = .done r) ∧ s'.nextPrimaryRetryAt = u.nextPrimaryRetryAt := by
  unfold fetchRemote at h
  dsimp only at h
  split at h
  · obtain ⟨rfl, rfl⟩ := Prod.mk.inj h
    exact ⟨⟨_, rfl⟩, rfl⟩
  · obtain ⟨rfl, rfl⟩ := Prod.mk.inj h
    exact ⟨⟨_, rfl⟩, rfl⟩

theorem remoteTurn_goes {flow : Flow ε T} (hremote : s.activeSource = .remote)
    (h : remoteTurn out config s = (flow, s')) : Goes out config s flow s' := by
  unfold remoteTurn at h
  dsimp only at h
  split at h
  · rename_i hdue
    split at h
    · rename_i u hstart
      obtain ⟨_, rfl⟩ := Prod.mk.inj hstart
      obtain ⟨rfl, rfl⟩ := Prod.mk.inj h
      exact .retried hremote hdue rfl rfl rfl rfl
    · obtain ⟨⟨r, rfl⟩, hretry⟩ := fetchRemote_returns h
      exact .returned (Or.inr ⟨_, hretry⟩)
  · obtain ⟨⟨r, rfl⟩, hretry⟩ := fetchRemote_returns h
    exact .returned (Or.inl hretry)

/-- **Every turn goes on in one of these ways.** -/
theorem turn_goes {flow : Flow ε T} (h : turn out config s = (flow, s')) : Goes out config s flow s' := by
  unfold turn at h
  split at h
  · rename_i hwas
    exact captiveTurn_goes hwas h
  · rename_i hremote
    exact remoteTurn_goes hremote h

/-! ## Where the call returns -/

/-- Every retry time that can be computed is an `Instant`. -/
def Representable (clock : Clock χ) (config : CaptiveCoreConfig) (maxInstant : Instant) : Prop :=
  ∀ c, (clock.now c).1 + config.restartBackoff ≤ maxInstant

/-- So no turn panics. -/
theorem Goes.fits {flow : Flow ε T} (h : Goes out config s flow s') (hclock : Representable out.clock config maxInstant)
    (hfits : s.nextPrimaryRetryAt ≤ maxInstant) : s'.nextPrimaryRetryAt ≤ maxInstant := by
  cases h with
  | returned hretry =>
      rcases hretry with hsame | ⟨c, hread⟩
      · rw [hsame]
        exact hfits
      · rw [hread]
        exact hclock c
  | restarted _ _ _ _ hretry | retried _ _ _ _ _ hretry =>
      rw [hretry]
      exact hfits
  | gaveUp c _ _ _ _ _ hretry =>
      rw [hretry]
      exact hclock c

/-- The call returns if it does so from wherever its next turn goes on. -/
theorem returns_of_turn (hclock : Representable out.clock config maxInstant) (hfits : s.nextPrimaryRetryAt ≤ maxInstant)
    (h : ∀ s', Goes out config s .next s' → s'.nextPrimaryRetryAt ≤ maxInstant → Returns out config maxInstant s') :
    Returns out config maxInstant s := by
  cases hturn : turn out config s with
  | mk flow s' =>
      have hgoes : Goes out config s flow s' := turn_goes hturn
      have hfits' := hgoes.fits hclock hfits
      cases flow with
      | done r => exact .of_done hturn hfits'
      | next => exact .of_next hturn hfits' (h s' hgoes hfits')

/-- **With the attempts used up**, the first round in which the backoff has not passed at once is the last. -/
theorem returns_spent (hclock : Representable out.clock config maxInstant) (n : Nat)
    (hactive : s.activeSource = .captiveCore)
    (hspent : config.maxRestartAttempts.toNat ≤ s.consecutiveRestartFailures.toNat)
    (hlater : ¬ out.clock.DueAtOnce config.restartBackoff (out.clock.round^[n] s.clock))
    (hfits : s.nextPrimaryRetryAt ≤ maxInstant) : Returns out config maxInstant s := by
  -- on the rounds before that: a failure that is given up on, and a retry
  induction n generalizing s with
  | zero =>
      apply returns_of_turn hclock hfits
      intro s₁ hgoes hfits₁
      cases hgoes with
      | restarted _ _ hcounted hmax => omega
      | retried hremote => cases hactive.symm.trans hremote
      | gaveUp c _ hremote _ hread hclock₁ hretry₁ =>
          apply returns_of_turn hclock hfits₁
          intro s₂ hgoes₂ _
          cases hgoes₂ with
          | restarted hwas => cases hremote.symm.trans hwas
          | gaveUp _ hwas => cases hremote.symm.trans hwas
          | retried _ hdue =>
              rw [hclock₁, hretry₁, hread hspent] at hdue
              exact absurd hdue hlater
  | succ n ih =>
      apply returns_of_turn hclock hfits
      intro s₁ hgoes hfits₁
      cases hgoes with
      | restarted _ _ hcounted hmax => omega
      | retried hremote => cases hactive.symm.trans hremote
      | gaveUp c _ hremote hspent₁ hread hclock₁ hretry₁ =>
          apply returns_of_turn hclock hfits₁
          intro s₂ hgoes₂ hfits₂
          cases hgoes₂ with
          | restarted hwas => cases hremote.symm.trans hwas
          | gaveUp _ hwas => cases hremote.symm.trans hwas
          | retried _ _ hactive₂ hcount₂ hclock₂ _ =>
              have hround : s₂.clock = out.clock.round s.clock := by
                rw [hclock₂, hclock₁, hread hspent]
                rfl
              apply ih hactive₂ (by rw [hcount₂]; exact hspent₁) _ hfits₂
              rw [hround]
              exact hlater

/-- Sooner or later a retry is put off. -/
def PutsOff (clock : Clock χ) (config : CaptiveCoreConfig) : Prop :=
  ∀ c, ∃ n, ¬ clock.DueAtOnce config.restartBackoff (clock.round^[n] c)

theorem returns_captive (hclock : Representable out.clock config maxInstant) (hputsOff : PutsOff out.clock config)
    (left : Nat) (hactive : s.activeSource = .captiveCore)
    (hleft : config.maxRestartAttempts.toNat - s.consecutiveRestartFailures.toNat ≤ left)
    (hfits : s.nextPrimaryRetryAt ≤ maxInstant) : Returns out config maxInstant s := by
  -- on the restart attempts that are left
  induction left generalizing s with
  | zero =>
      obtain ⟨n, hn⟩ := hputsOff s.clock
      exact returns_spent hclock n hactive (by omega) hn hfits
  | succ left ih =>
      apply returns_of_turn hclock hfits
      intro s₁ hgoes hfits₁
      cases hgoes with
      | restarted _ hactive₁ hcounted hmax => exact ih hactive₁ (by omega) hfits₁
      | retried hremote => cases hactive.symm.trans hremote
      | gaveUp c _ hremote hspent₁ _ _ _ =>
          apply returns_of_turn hclock hfits₁
          intro s₂ hgoes₂ hfits₂
          cases hgoes₂ with
          | restarted hwas => cases hremote.symm.trans hwas
          | gaveUp _ hwas => cases hremote.symm.trans hwas
          | retried _ _ hactive₂ hcount₂ _ _ =>
              obtain ⟨n, hn⟩ := hputsOff s₂.clock
              exact returns_spent hclock n hactive₂ (by rw [hcount₂]; exact hspent₁) hn hfits₂

/-- **The call returns**, whatever the core does, if sooner or later a retry is put off. -/
theorem returns_of_putsOff (hclock : Representable out.clock config maxInstant) (hputsOff : PutsOff out.clock config)
    (hfits : s.nextPrimaryRetryAt ≤ maxInstant) : Returns out config maxInstant s := by
  cases hactive : s.activeSource with
  | captiveCore => exact returns_captive hclock hputsOff _ hactive (Nat.le_refl _) hfits
  | remote =>
      apply returns_of_turn hclock hfits
      intro s₁ hgoes hfits₁
      cases hgoes with
      | restarted hwas => cases hactive.symm.trans hwas
      | gaveUp _ hwas => cases hactive.symm.trans hwas
      | retried _ _ hactive₁ _ _ _ => exact returns_captive hclock hputsOff _ hactive₁ (Nat.le_refl _) hfits₁

/-! ## Where it does not -/

/-- A core that starts whenever it is asked to, and never yields a frame. -/
def silentCore (clock : Clock χ) : Outside Unit Unit χ Unit Unit where
  start _ _ _         := (.ok (), ())
  nextFrame _ _       := (.error (), ())
  archiveState _ _    := (.ok none, ())
  stop _              := (.ok (), ())
  isRunning _         := (true, ())
  nextFrom _ _        := (.error (), ())
  decoder _           := .error ()
  sequenceExtractor _ := none
  now                 := clock.now
  systemNow           := clock.systemNow
  sleep               := clock.sleep
  errorText _         := []

/-- Its ingestor with all attempts used up. -/
def spent (config : CaptiveCoreConfig) (retryAt : Instant) (c : χ) : CaptiveCoreIngestor Unit Unit χ where
  primary                    := ()
  fallback                   := ()
  lastProcessedLedger        := none
  consecutiveRestartFailures := config.maxRestartAttempts
  activeSource               := .captiveCore
  fallbackReason             := none
  nextPrimaryRetryAt         := retryAt
  lastArchivePath            := none
  lastHeartbeatAt            := none
  clock                      := c

variable {clock : Clock χ} {c : χ} {retryAt : Instant}

/-- What a turn leaves of it: the failure is given up on, and a retry time computed. -/
def givenUp (clock : Clock χ) (config : CaptiveCoreConfig) (c : χ) : CaptiveCoreIngestor Unit Unit χ :=
  { spent config ((clock.now c).1 + config.restartBackoff) (clock.now c).2 with
    activeSource := .remote, fallbackReason := some [] }

theorem turn_spent : turn (silentCore clock) config (spent config retryAt c) = (.next, givenUp clock config c) := by
  have hnone : config.maxRestartAttempts.toNat - config.maxRestartAttempts.toNat = 0 := Nat.sub_self _
  simp only [turn, spent, captiveTurn, silentCore, recover, handlePrimaryFailure, hnone, restartLoop, readNow, givenUp]
  rfl

theorem turn_givenUp (hdue : clock.DueAtOnce config.restartBackoff c) :
    turn (silentCore clock) config (givenUp clock config c)
      = (.next, spent config ((clock.now c).1 + config.restartBackoff) (clock.round c)) := by
  unfold Clock.DueAtOnce at hdue
  simp only [turn, givenUp, spent, remoteTurn, readNow, silentCore, startPrimary, Clock.round]
  exact if_pos hdue

/-- **With every retry due at once it goes on for ever.** -/
theorem nextLedger_spent (hdue : ∀ n, clock.DueAtOnce config.restartBackoff (clock.round^[n] c)) (turns : Nat) :
    nextLedger (silentCore clock) config turns (spent config retryAt c) = none := by
  -- two turns lead back, a round of the clock later
  induction turns using Nat.strongRecOn generalizing c retryAt with
  | ind turns ih =>
      match turns with
      | 0 => rfl
      | 1 =>
          unfold nextLedger
          rw [turn_spent]
          rfl
      | turns + 2 =>
          unfold nextLedger
          rw [turn_spent]
          show nextLedger (silentCore clock) config (turns + 1) (givenUp clock config c) = none
          have hfirst : clock.DueAtOnce config.restartBackoff c := hdue 0
          unfold nextLedger
          rw [turn_givenUp hfirst]
          exact ih turns (by omega) fun n => hdue (n + 1)

/-- A retry time that is no `Instant` panics in the first turn. -/
theorem not_returns_spent (hlate : maxInstant < (clock.now c).1 + config.restartBackoff) :
    ¬ Returns (silentCore clock) config maxInstant (spent config retryAt c) := by
  rintro ⟨turns, h⟩
  cases turns with
  | zero => exact h
  | succ turns =>
      obtain ⟨hfits, _⟩ := h
      rw [turn_spent] at hfits
      exact Nat.not_le.mpr hlate hfits

/-! ## The condition -/

/-- **A call of `next_ledger` returns, from every state and whatever core, remote source and decoder there are, iff** every
    reading of the clock leaves room for the backoff, and however the clock stands, there is a later round in which the
    backoff does not pass between the two readings. What a call that returns has for a result, `Returns.result` says. -/
theorem next_ledger_returns_iff (clock : Clock χ) (config : CaptiveCoreConfig) (maxInstant : Instant) :
    (∀ (B R T ε : Type) (out : Outside B R χ T ε) (s : CaptiveCoreIngestor B R χ), out.clock = clock →
        s.nextPrimaryRetryAt ≤ maxInstant → Returns out config maxInstant s) ↔
      Representable clock config maxInstant ∧ PutsOff clock config := by
  constructor
  · intro h
    have hspent : ∀ c, Returns (silentCore clock) config maxInstant (spent config 0 c) := by
      intro c
      exact h Unit Unit Unit Unit (silentCore clock) (spent config 0 c) rfl (Nat.zero_le _)
    constructor
    · intro c
      by_contra hlate
      exact not_returns_spent (Nat.not_le.mp hlate) (hspent c)
    · intro c
      by_contra hnever
      obtain ⟨turns, result, hresult⟩ := (hspent c).result
      have hnone : nextLedger (silentCore clock) config turns (spent config 0 c) = none := by
        refine nextLedger_spent (fun n => ?_) turns
        by_contra hlater
        exact hnever ⟨n, hlater⟩
      cases hnone.symm.trans hresult
  · rintro ⟨hclock, hputsOff⟩ B R T ε out s rfl hfits
    exact returns_of_putsOff hclock hputsOff hfits

/-- A backoff longer than the clock moves between two readings puts every retry off. -/
theorem putsOff_of_quick_readings
    (hquick : ∀ c, (clock.now (clock.now c).2).1 < (clock.now c).1 + config.restartBackoff) : PutsOff clock config :=
  fun c => ⟨0, Nat.not_le.mpr (hquick c)⟩

/-- No backoff puts none off, whatever the clock. -/
theorem not_putsOff_of_zero (hadvances : clock.Advances) (hzero : config.restartBackoff = 0) (c : χ) :
    ¬ PutsOff clock config := by
  intro hputsOff
  obtain ⟨n, hn⟩ := hputsOff c
  apply hn
  unfold Clock.DueAtOnce
  rw [hzero]
  exact hadvances.forward _

/-! ## No backoff -/

namespace NoBackoff

/-- A clock that counts its readings, and the time slept. -/
def ticking : Clock Nat where
  now c            := (c, c + 1)
  systemNow c      := (c, c + 1)
  sleep duration c := c + duration

/-- The default configuration, without a backoff. -/
def noBackoff : CaptiveCoreConfig where
  stateArchiveDir    := ascii "archive"
  startLedger        := 1
  heartbeatTimeout   := 15000000000
  restartBackoff     := 0
  maxRestartAttempts := 3
  renderedToml       := []

theorem ticking_advances : ticking.Advances where
  forward := fun c => Nat.le_succ c
  slept   := fun _ _ => Nat.le_refl _

/-- **A call that never returns**, though the clock advances: the core starts every time and yields no frame. -/
theorem never_returns :
    ticking.Advances ∧ ∀ turns, nextLedger (silentCore ticking) noBackoff turns (spent noBackoff 0 0) = none := by
  refine ⟨ticking_advances, fun turns => nextLedger_spent (fun n => ?_) turns⟩
  exact ticking_advances.forward (ticking.round^[n] 0)

end NoBackoff

end XlmNs.Ingestion
