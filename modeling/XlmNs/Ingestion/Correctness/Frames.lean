import XlmNs.Ingestion.Backend

/-!
# `Ingestion.Correctness.Frames` — the frames of a stream

The reader of the captive core asks for four bytes, and for as many as they say, and each time takes what comes in pieces.
`frames_read_iff`: read to the end, a stream gives exactly the frames its bytes are made of, whatever the pieces, and then the
failure that says how far into the next frame it broke off.
-/

namespace XlmNs.Ingestion

open Soroban
open Sdk (SdkError)

variable {s s' : Stream} {n : Nat} {bytes frame rest : Bytes} {timeout : Duration}

/-! ## Pieces -/

/-- The bytes that come before the stream ends, fails or falls silent. -/
def received : Stream → Bytes
  | .data bytes :: s => if bytes = [] then [] else bytes ++ received s
  | _                => []

/-- What stops it; `none` if nothing more came in time. -/
def stopsWith : Stream → Option IoError
  | []               => some .unexpectedEof
  | .late :: _       => none
  | .failed e :: _   => some (.other e)
  | .data bytes :: s => if bytes = [] then some .unexpectedEof else stopsWith s

/-- **Enough bytes**: they are read, and the rest is left, whatever the pieces. -/
theorem readExact_enough (h : n ≤ (received s).length) :
    ∃ s', readExact n s = (some (.ok ((received s).take n)), s') ∧ received s' = (received s).drop n ∧
      stopsWith s' = stopsWith s := by
  induction s generalizing n with
  | nil =>
      obtain rfl : n = 0 := Nat.le_zero.mp h
      exact ⟨[], rfl, rfl, rfl⟩
  | cons arrival s ih =>
      cases n with
      | zero => exact ⟨arrival :: s, rfl, rfl, rfl⟩
      | succ n =>
          cases arrival with
          | failed e => exact absurd h (Nat.not_succ_le_zero n)
          | late     => exact absurd h (Nat.not_succ_le_zero n)
          | data bytes =>
              by_cases hnone : bytes = []
              · rw [received, if_pos hnone] at h
                exact absurd h (Nat.not_succ_le_zero n)
              · rw [received, if_neg hnone, List.length_append] at h
                rw [readExact, if_neg hnone, received, if_neg hnone, stopsWith, if_neg hnone]
                by_cases hlong : n + 1 < bytes.length
                · -- the piece has more than is asked for
                  have hleft : bytes.drop (n + 1) ≠ [] := by
                    rw [Ne, List.drop_eq_nil_iff]
                    omega
                  refine ⟨.data (bytes.drop (n + 1)) :: s, ?_, ?_, ?_⟩
                  · rw [if_pos hlong, List.take_append_of_le_length (Nat.le_of_lt hlong)]
                  · rw [received, if_neg hleft, List.drop_append_of_le_length (Nat.le_of_lt hlong)]
                  · rw [stopsWith, if_neg hleft]
                · have hle : bytes.length ≤ n + 1 := Nat.le_of_not_lt hlong
                  obtain ⟨s', hread, hreceived, hstops⟩ := ih (n := n + 1 - bytes.length) (by omega)
                  refine ⟨s', ?_, ?_, hstops⟩
                  · rw [if_neg hlong, hread, List.take_append, List.take_of_length_le hle]
                  · rw [hreceived, List.drop_append, List.drop_of_length_le hle, List.nil_append]

/-- **Too few bytes**: the read ends as the stream does. -/
theorem readExact_short (h : (received s).length < n) :
    ∃ s', readExact n s = ((stopsWith s).map .error, s') := by
  induction s generalizing n with
  | nil =>
      obtain ⟨n, rfl⟩ : ∃ m, n = m + 1 := ⟨n - 1, by omega⟩
      exact ⟨[], rfl⟩
  | cons arrival s ih =>
      obtain ⟨n, rfl⟩ : ∃ m, n = m + 1 := ⟨n - 1, by omega⟩
      cases arrival with
      | failed e => exact ⟨s, rfl⟩
      | late     => exact ⟨s, rfl⟩
      | data bytes =>
          by_cases hnone : bytes = []
          · refine ⟨s, ?_⟩
            rw [readExact, if_pos hnone, stopsWith, if_pos hnone]
            rfl
          · rw [received, if_neg hnone, List.length_append] at h
            have hlong : ¬ n + 1 < bytes.length := by omega
            obtain ⟨s', hread⟩ := ih (n := n + 1 - bytes.length) (by omega)
            refine ⟨s', ?_⟩
            rw [readExact, if_neg hnone, if_neg hlong, hread, stopsWith, if_neg hnone]
            cases stopsWith s <;> rfl

/-! ## One frame -/

/-- The stream holds a whole frame. -/
theorem readLengthPrefixedFrame_whole (h : splitFrame 4 (received s) = some (frame, rest)) :
    ∃ s', readLengthPrefixedFrame s = (some (.ok frame), s') ∧ received s' = rest ∧ stopsWith s' = stopsWith s := by
  unfold splitFrame at h
  dsimp only at h
  split at h
  · rename_i hwhole
    obtain ⟨hframe, hrest⟩ := Prod.mk.inj (Option.some.inj h)
    obtain ⟨s₁, hheader, hreceived, hstops⟩ := readExact_enough hwhole.1
    rw [← hreceived] at hwhole hframe hrest
    obtain ⟨s₂, hpayload, hreceived', hstops'⟩ := readExact_enough hwhole.2
    refine ⟨s₂, ?_, hreceived'.trans hrest, hstops'.trans hstops⟩
    rw [readLengthPrefixedFrame, hheader]
    dsimp only
    rw [hpayload]
    dsimp only
    rw [hframe]
  · cases h

/-- How reading fails on a stream that breaks off within a frame, after these bytes of it. -/
def brokenOff (timeout : Duration) (rest : Bytes) : Option IoError → SdkError
  | none   => heartbeatFailure timeout
  | some e => if rest.length < 4 then headerFailure e else payloadFailure e

/-- The stream breaks off within a frame. -/
theorem nextFrame_broken (timeout : Duration) (h : splitFrame 4 (received s) = none) :
    ∃ s', CaptiveCoreReader.nextFrame timeout s = (.error (brokenOff timeout (received s) (stopsWith s)), s') := by
  by_cases hshort : (received s).length < 4
  · obtain ⟨s', hread⟩ := readExact_short hshort
    refine ⟨s', ?_⟩
    rw [CaptiveCoreReader.nextFrame, readLengthPrefixedFrame, hread]
    cases stopsWith s with
    | none   => rfl
    | some e =>
        rw [brokenOff, if_pos hshort]
        rfl
  · have hheld : 4 ≤ (received s).length := Nat.le_of_not_lt hshort
    obtain ⟨s₁, hheader, hreceived, hstops⟩ := readExact_enough hheld
    have hmissing : (received s₁).length < ofBigEndian ((received s).take 4) := by
      rw [hreceived]
      unfold splitFrame at h
      dsimp only at h
      split at h
      · cases h
      · rename_i hpart
        exact Nat.lt_of_not_le fun hle => hpart ⟨hheld, hle⟩
    obtain ⟨s₂, hpayload⟩ := readExact_short hmissing
    refine ⟨s₂, ?_⟩
    rw [CaptiveCoreReader.nextFrame, readLengthPrefixedFrame, hheader]
    dsimp only
    rw [hpayload, hstops]
    cases stopsWith s with
    | none   => rfl
    | some e =>
        rw [brokenOff, if_neg hshort]
        rfl

theorem nextFrame_whole (timeout : Duration) (h : splitFrame 4 (received s) = some (frame, rest)) :
    ∃ s', CaptiveCoreReader.nextFrame timeout s = (.ok frame, s') ∧ received s' = rest ∧ stopsWith s' = stopsWith s := by
  obtain ⟨s', hread, hreceived, hstops⟩ := readLengthPrefixedFrame_whole h
  refine ⟨s', ?_, hreceived, hstops⟩
  rw [CaptiveCoreReader.nextFrame, hread]

/-- A frame that is read is the first the stream holds. -/
theorem nextFrame_ok (h : CaptiveCoreReader.nextFrame timeout s = (.ok frame, s')) :
    splitFrame 4 (received s) = some (frame, received s') := by
  cases hsplit : splitFrame 4 (received s) with
  | none =>
      obtain ⟨s'', hbroken⟩ := nextFrame_broken timeout hsplit
      cases (Prod.mk.inj (hbroken.symm.trans h)).1
  | some split =>
      obtain ⟨frame', rest⟩ := split
      obtain ⟨s'', hwhole, hreceived, -⟩ := nextFrame_whole timeout hsplit
      obtain ⟨hframe, rfl⟩ := Prod.mk.inj (hwhole.symm.trans h)
      rw [Except.ok.inj hframe, hreceived]

/-! ## The whole stream -/

/-- The frames successive calls get, and the failure of the first that fails; at most `calls` of them. -/
def readFrames (timeout : Duration) : Nat → Stream → List Bytes × Option SdkError
  | 0, _         => ([], none)
  | calls + 1, s =>
      match CaptiveCoreReader.nextFrame timeout s with
      | (.error e, _)   => ([], some e)
      | (.ok frame, s') =>
          let more := readFrames timeout calls s'
          (frame :: more.1, more.2)

/-- Enough calls get every frame. -/
theorem readFrames_spec (timeout : Duration) {calls : Nat} (h : (received s).length < calls) :
    ∃ frames rest, Cuts 4 (received s) frames rest ∧
      readFrames timeout calls s = (frames, some (brokenOff timeout rest (stopsWith s))) := by
  induction calls generalizing s with
  | zero => exact absurd h (Nat.not_lt_zero _)
  | succ calls ih =>
      cases hsplit : splitFrame 4 (received s) with
      | none =>
          obtain ⟨s', hbroken⟩ := nextFrame_broken timeout hsplit
          refine ⟨[], received s, cuts_nil_iff.mpr ⟨rfl, hsplit⟩, ?_⟩
          rw [readFrames, hbroken]
      | some split =>
          obtain ⟨frame, rest⟩ := split
          obtain ⟨s', hwhole, hreceived, hstops⟩ := nextFrame_whole timeout hsplit
          have hlength := splitFrame_length hsplit
          obtain ⟨frames, rest', hcuts, hread⟩ := ih (s := s') (by rw [hreceived]; omega)
          refine ⟨frame :: frames, rest', ?_, ?_⟩
          · refine cuts_cons_iff.mpr ⟨rest, hsplit, ?_⟩
            rwa [← hreceived]
          · rw [readFrames, hwhole, ← hstops]
            dsimp only
            rw [hread]

/-- **Read to the end, a stream gives the frames it is made of**, in whatever pieces they came, and fails on what is left
    as the stream ended. -/
theorem frames_read_iff (timeout : Duration) (s : Stream) (frames : List Bytes) (error : SdkError) :
    readFrames timeout ((received s).length + 1) s = (frames, some error) ↔
      ∃ rest, Cuts 4 (received s) frames rest ∧ error = brokenOff timeout rest (stopsWith s) := by
  obtain ⟨frames', rest', hcuts', hread⟩ := readFrames_spec timeout (Nat.lt_succ_self (received s).length)
  rw [hread]
  constructor
  · intro h
    obtain ⟨hframes, herror⟩ := Prod.mk.inj h
    rw [← hframes]
    exact ⟨rest', hcuts', (Option.some.inj herror).symm⟩
  · rintro ⟨rest, hcuts, rfl⟩
    obtain ⟨rfl, rfl⟩ := hcuts.unique hcuts'
    rfl

/-- A frame in three pieces, and the beginning of another. -/
example :
    readFrames 15000000000 20 [.data [0, 0], .data [0, 2, 10], .data [11, 0, 0], .late] =
      ([[10, 11]], some (.ingestion "captive core heartbeat timed out after 15000 ms")) := by
  decide +kernel

end XlmNs.Ingestion
