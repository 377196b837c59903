import XlmNs.Cli.Statuses

/-!
# `Cli.Correctness.Statuses` — does the command line agree with the chain?

Each of the three commands puts a time in one of three states by two comparisons, as `registry.name_state` does with its
own two (`inOrder`). So a command agrees with the chain iff its first comparison comes out the same, and its second one
does unless the first settles it (`inOrder_eq_iff`). The comparisons differ in the casts to `i64`, in which side the grace
period is added on, and in its length.
-/

namespace XlmNs.Cli

open Soroban
open Sdk (ResolutionResult)

/-- The state that two comparisons tell: not expired, and not past the grace period. -/
def inOrder (unexpired inGrace : Prop) [Decidable unexpired] [Decidable inGrace] : NameState :=
  if unexpired then .active else if inGrace then .gracePeriod else .claimable

theorem inOrder_eq_iff {p q p' q' : Prop} [Decidable p] [Decidable q] [Decidable p'] [Decidable q'] :
    inOrder p q = inOrder p' q' ↔ (p ↔ p') ∧ (¬ p' → (q ↔ q')) := by
  unfold inOrder
  by_cases hp : p <;> by_cases hp' : p' <;> by_cases hq : q <;> by_cases hq' : q' <;> simp [hp, hp', hq, hq']

theorem inOrder_eq_claimable {p q : Prop} [Decidable p] [Decidable q] : inOrder p q = .claimable ↔ ¬ p ∧ ¬ q := by
  unfold inOrder
  by_cases hp : p <;> by_cases hq : q <;> simp [hp, hq]

variable {s : Registry.State} {name : Bytes} {entry : RegistryEntry} {now : UInt64}

/-- **The chain's comparisons.** -/
theorem nameState_eq (hentry : s.entry name = some entry) :
    Registry.nameState s name now = inOrder (now ≤ entry.expiresAt) (now ≤ entry.gracePeriodEndsAt) := by
  unfold Registry.nameState inOrder
  rw [hentry]
  by_cases hactive : now ≤ entry.expiresAt
  · simp [RegistryEntry.isActiveAt, isActiveAt, hactive]
  · by_cases hgrace : now ≤ entry.gracePeriodEndsAt
    · have hnot : ¬ entry.gracePeriodEndsAt < now := UInt64.not_lt.mpr hgrace
      simp [RegistryEntry.isActiveAt, isActiveAt, RegistryEntry.isClaimableAt, isClaimableAt, hactive, hgrace, hnot]
    · have hpast : entry.gracePeriodEndsAt < now := UInt64.not_le.mp hgrace
      simp [RegistryEntry.isActiveAt, isActiveAt, RegistryEntry.isClaimableAt, isClaimableAt, hactive, hgrace, hpast]

/-! ## The portfolio export -/

/-- The casts to `i64` keep the comparisons: the clock and the expiry are on the same side of 2⁶³, and once the name has
    expired, so are the clock and the end of its grace period. -/
def SameSide (expiresAt graceEnd now : UInt64) : Prop :=
  (Fits63 now ↔ Fits63 expiresAt) ∧ (expiresAt < now → (Fits63 now ↔ Fits63 graceEnd))

theorem cast_agrees_iff {a b : UInt64} : (a.toInt64 ≤ b.toInt64 ↔ a ≤ b) ↔ (Fits63 a ↔ Fits63 b) := by
  constructor
  · intro h
    by_cases ha : Fits63 a
    · refine iff_of_true ha ?_
      by_contra hb
      exact not_cast_le ha hb (h.mpr (UInt64.le_of_lt (lt_of_fits63 ha hb)))
    · refine iff_of_false ha ?_
      intro hb
      exact ha (hb.of_le (h.mp (cast_le_of_not ha hb)))
  · exact cast_le_iff

variable {clock : SystemTime} {record : Sdk.RegistryEntry} {found : ResolutionResult} {e g : UInt64}

theorem portfolioRecord_state :
    (portfolioRecord clock record).state
      = some (inOrder (clock.asSecs.toInt64 ≤ record.expiresAt.toInt64)
          (clock.asSecs.toInt64 ≤ record.gracePeriodEndsAt.toInt64)) := by
  unfold PortfolioRecord.state portfolioRecord PortfolioRecord.fromNameRecord recordStatus inOrder
  by_cases hactive : clock.asSecs.toInt64 ≤ record.expiresAt.toInt64
  · simp [hactive]
  · by_cases hgrace : clock.asSecs.toInt64 ≤ record.gracePeriodEndsAt.toInt64
    · simp [hactive, hgrace]
    · simp [hactive, hgrace]

/-- **The export agrees** iff the casts keep the comparisons. -/
theorem portfolio_agrees_iff :
    (portfolioRecord clock record).state
        = some (inOrder (clock.asSecs ≤ record.expiresAt) (clock.asSecs ≤ record.gracePeriodEndsAt)) ↔
      SameSide record.expiresAt record.gracePeriodEndsAt clock.asSecs := by
  rw [portfolioRecord_state, Option.some.injEq, inOrder_eq_iff, cast_agrees_iff, cast_agrees_iff, UInt64.not_le]
  exact Iff.rfl

/-! ## `availability` -/

/-- Where `availability` does not go wrong: past the grace period, and more than its length before the expiry. -/
def FarFromExpiry (overflowChecks : Bool) (expiresAt graceEnd now : UInt64) : Prop :=
  graceEnd < now ∨ now.toNat + graceSeconds.toNat < expiresAt.toNat ∨
    overflowChecks = false ∧ now < expiresAt ∧ u64Max < now.toNat + graceSeconds.toNat

theorem availability_state (overflowChecks : Bool) (hfound : found.expiresAt = some e) :
    (availability overflowChecks clock (some found)).bind Availability.state
      = if e ≤ clock.asSecs then some .claimable
        else (plainAdd overflowChecks clock.asSecs graceSeconds).map fun graceStart =>
          if e ≤ graceStart then .gracePeriod else .active := by
  unfold availability
  simp only [hfound]
  by_cases hexpired : e ≤ clock.asSecs
  · simp [hexpired, Availability.state]
  · rw [if_neg hexpired, if_neg hexpired]
    cases plainAdd overflowChecks clock.asSecs graceSeconds with
    | none => rfl
    | some graceStart =>
        by_cases hgrace : e ≤ graceStart
        · simp [hgrace, Availability.state]
        · simp [hgrace, Availability.state]

/-- **`availability` agrees** iff it is far from the expiry: it takes the time before for the grace period, and the grace
    period for the time after. -/
theorem run_availability_agrees_iff (overflowChecks : Bool) (hfound : found.expiresAt = some e) (hends : e ≤ g) :
    (availability overflowChecks clock (some found)).bind Availability.state
        = some (inOrder (clock.asSecs ≤ e) (clock.asSecs ≤ g)) ↔
      FarFromExpiry overflowChecks e g clock.asSecs := by
  rw [availability_state overflowChecks hfound]
  unfold FarFromExpiry
  have hends' := UInt64.le_iff_toNat_le.mp hends
  by_cases hexpired : e ≤ clock.asSecs
  · -- it says claimable
    have hexpired' := UInt64.le_iff_toNat_le.mp hexpired
    rw [if_pos hexpired, Option.some.injEq, eq_comm, inOrder_eq_claimable, UInt64.not_le, UInt64.not_le]
    constructor
    · rintro ⟨_, hpast⟩
      exact Or.inl hpast
    · rintro (hpast | hfar | ⟨_, hbefore, _⟩)
      · exact ⟨UInt64.lt_of_le_of_lt hends hpast, hpast⟩
      · omega
      · exact absurd hbefore (UInt64.not_lt.mpr hexpired)
  · have hbefore : clock.asSecs < e := UInt64.not_le.mp hexpired
    have hactive : inOrder (clock.asSecs ≤ e) (clock.asSecs ≤ g) = .active := if_pos (UInt64.le_of_lt hbefore)
    have hbefore' := UInt64.lt_iff_toNat_lt.mp hbefore
    have hopen : ¬ g < clock.asSecs := UInt64.not_lt.mpr (UInt64.le_trans (UInt64.le_of_lt hbefore) hends)
    rw [if_neg hexpired, hactive, or_iff_right hopen]
    by_cases hover : u64Max < clock.asSecs.toNat + graceSeconds.toNat
    · -- the addition overflows: no answer, or one that is right by chance
      have hmax := toNat_le_u64Max e
      have hfar : ¬ clock.asSecs.toNat + graceSeconds.toNat < e.toNat := by omega
      rw [or_iff_right hfar]
      cases overflowChecks with
      | true =>
          rw [plainAdd_panics hover]
          exact iff_of_false (fun h => by cases h) (fun h => Bool.false_ne_true h.1.symm)
      | false =>
          obtain ⟨wrapped, hwrapped, hle⟩ := plainAdd_wraps hover
          have hafter : ¬ e ≤ wrapped := by
            rw [UInt64.not_le, UInt64.lt_iff_toNat_lt]
            omega
          rw [hwrapped, Option.map_some, if_neg hafter]
          exact iff_of_true rfl ⟨rfl, hbefore, hover⟩
    · obtain ⟨graceStart, hsum, hvalue⟩ := plainAdd_fits overflowChecks (Nat.not_lt.mp hover)
      rw [hsum, Option.map_some]
      by_cases hgrace : e ≤ graceStart
      · have hgrace' := UInt64.le_iff_toNat_le.mp hgrace
        rw [if_pos hgrace]
        refine iff_of_false (fun h => by cases h) ?_
        rintro (hfar | ⟨_, _, hover'⟩)
        · omega
        · exact hover hover'
      · have hgrace' := UInt64.lt_iff_toNat_lt.mp (UInt64.not_le.mp hgrace)
        rw [if_neg hgrace]
        exact iff_of_true rfl (Or.inl (by omega))

/-! ## `watch` -/

theorem inOrder_ne_missing {p q : Prop} [Decidable p] [Decidable q] : inOrder p q ≠ .missing := by
  unfold inOrder
  by_cases hp : p <;> by_cases hq : q <;> simp [hp, hq]

/-- The clock as `watch` reads it. -/
def SystemTime.date (clock : SystemTime) : DateTime := ⟨clock.asSecs.toInt64.toInt, clock.subsecNanos, clock.valid⟩

/-- The date of an expiry. -/
def expiryDate (e : UInt64) : DateTime := ⟨e.toInt64.toInt, 0, valid_zero⟩

/-- So many days later. -/
def DateTime.plusDays (date : DateTime) (days : Int) : DateTime := { date with secs := date.secs + daysSecs days }

@[simp] theorem DateTime.secs_plusDays (date : DateTime) (days : Int) :
    (date.plusDays days).secs = date.secs + days * 86400 := rfl

@[simp] theorem DateTime.nanos_plusDays (date : DateTime) (days : Int) : (date.plusDays days).nanos = date.nanos := rfl

/-- **What `watch` computes with is a date**, as far as it gets. -/
structure Dated (calendar : Calendar) (clock : SystemTime) (e : UInt64) : Prop where
  now      : calendar.Holds clock.date.secs
  expiry   : calendar.Holds (expiryDate e).secs
  graceEnd : calendar.Holds ((expiryDate e).plusDays 90).secs
  soon     : ¬ clock.date.After (expiryDate e) → calendar.Holds ((expiryDate e).plusDays (-30)).secs

variable {calendar : Calendar}

theorem fromTimestamp_eq {secs : Int64} {nanos : Nat} {valid : nanos < 1000000000} (h : calendar.Holds secs.toInt) :
    calendar.fromTimestamp secs nanos valid = some ⟨secs.toInt, nanos, valid⟩ := if_pos h

theorem addDays_eq {date : DateTime} {days : Int} (h : calendar.Holds (date.plusDays days).secs) :
    calendar.addDays date days = some (date.plusDays days) := if_pos h

/-- Past the end of the grace period it is past the expiry. -/
theorem after_expiry {date other : DateTime} (h : date.After (other.plusDays 90)) : date.After other := by
  simp only [DateTime.After, DateTime.secs_plusDays, DateTime.nanos_plusDays] at *
  omega

theorem fromTimestamp_none {secs : Int64} {nanos : Nat} {valid : nanos < 1000000000} (h : ¬ calendar.Holds secs.toInt) :
    calendar.fromTimestamp secs nanos valid = none := if_neg h

theorem addDays_none {date : DateTime} {days : Int} (h : ¬ calendar.Holds (date.plusDays days).secs) :
    calendar.addDays date days = none := if_neg h

theorem watch_state (hfound : found.expiresAt = some e) (h : Dated calendar clock e) :
    (watchStatus calendar clock (some found)).map ExpiryStatus.state
      = some (inOrder (¬ clock.date.After (expiryDate e)) (¬ clock.date.After ((expiryDate e).plusDays 90))) := by
  have hnow : calendar.utcNow clock = some clock.date := fromTimestamp_eq h.now
  have hdate : calendar.fromTimestamp e.toInt64 0 valid_zero = some (expiryDate e) := fromTimestamp_eq h.expiry
  unfold watchStatus ExpiryStatus.fromExpiresAt
  simp only [Option.bind_some, hfound, hdate, hnow, addDays_eq h.graceEnd]
  by_cases hgone : clock.date.After ((expiryDate e).plusDays 90)
  · simp [hgone, after_expiry hgone, inOrder, ExpiryStatus.state]
  · by_cases hexpired : clock.date.After (expiryDate e)
    · simp [hgone, hexpired, inOrder, ExpiryStatus.state]
    · simp only [hgone, hexpired, if_false, addDays_eq (h.soon hexpired), inOrder, not_false_eq_true, if_true]
      by_cases hsoon : clock.date.After ((expiryDate e).plusDays (-30))
      · simp [hsoon, ExpiryStatus.state]
      · simp [hsoon, ExpiryStatus.state]

/-- Where something is no date, `watch` panics or takes the name for one that nobody registered. -/
theorem dated_of_state (hfound : found.expiresAt = some e) {state : NameState} (hstate : state ≠ .missing)
    (h : (watchStatus calendar clock (some found)).map ExpiryStatus.state = some state) : Dated calendar clock e := by
  unfold watchStatus ExpiryStatus.fromExpiresAt at h
  simp only [Option.bind_some, hfound] at h
  by_cases hnow : calendar.Holds clock.date.secs
  · have hutc : calendar.utcNow clock = some clock.date := fromTimestamp_eq hnow
    simp only [hutc] at h
    by_cases hexpiry : calendar.Holds (expiryDate e).secs
    · have hdate : calendar.fromTimestamp e.toInt64 0 valid_zero = some (expiryDate e) := fromTimestamp_eq hexpiry
      simp only [hdate] at h
      by_cases hgraceEnd : calendar.Holds ((expiryDate e).plusDays 90).secs
      · simp only [addDays_eq hgraceEnd] at h
        refine ⟨hnow, hexpiry, hgraceEnd, ?_⟩
        intro hunexpired
        have hopen : ¬ clock.date.After ((expiryDate e).plusDays 90) := fun hgone => hunexpired (after_expiry hgone)
        by_contra hsoon
        simp [hopen, hunexpired, addDays_none hsoon] at h
      · simp [addDays_none hgraceEnd] at h
    · have hnone : calendar.fromTimestamp e.toInt64 0 valid_zero = none := fromTimestamp_none hexpiry
      simp only [hnone, Option.map_some, Option.some.injEq] at h
      exact absurd h.symm hstate
  · have hutc : calendar.utcNow clock = none := fromTimestamp_none hnow
    simp [hutc] at h

/-- **Where `watch` does not go wrong**: the casts agree, all dates exist, and the clock is not past the expiry, or at most
    30 days, or more than 90 days. -/
structure InSight (calendar : Calendar) (clock : SystemTime) (e : UInt64) : Prop where
  side  : Fits63 clock.asSecs ↔ Fits63 e
  dated : Dated calendar clock e
  apart : ¬ clock.date.After (expiryDate e) ∨
    ((expiryDate e).secs < clock.date.secs ∧ clock.date.secs ≤ ((expiryDate e).plusDays 30).secs) ∨
    clock.date.After ((expiryDate e).plusDays 90)

/-- The end of the default grace period, read off the casts. -/
theorem within_grace_iff (hside : Fits63 clock.asSecs ↔ Fits63 e) :
    clock.asSecs ≤ gracePeriodEndsAt e ↔ clock.date.secs ≤ ((expiryDate e).plusDays 30).secs := by
  have hmax := toNat_le_u64Max clock.asSecs
  have hgrace : gracePeriodSeconds.toNat = 2592000 := rfl
  rw [UInt64.le_iff_toNat_le, gracePeriodEndsAt, gracePeriodEndsAtWithDuration, toNat_saturatingAdd, hgrace]
  show _ ↔ clock.asSecs.toInt64.toInt ≤ e.toInt64.toInt + 30 * 86400
  rw [toInt_toInt64, toInt_toInt64]
  by_cases he : Fits63 e
  · rw [if_pos he, if_pos (hside.mpr he)]
    omega
  · rw [if_neg he, if_neg fun hnow => he (hside.mp hnow)]
    omega

theorem unexpired_iff (hside : Fits63 clock.asSecs ↔ Fits63 e) :
    clock.asSecs ≤ e ↔ clock.date.secs ≤ (expiryDate e).secs := by
  rw [← cast_le_iff hside, Int64.le_iff_toInt_le]
  exact Iff.rfl

/-- Across 2⁶³ the casts turn the first comparison round. -/
theorem side_of_agrees (h : ¬ clock.date.After (expiryDate e) ↔ clock.asSecs ≤ e) : Fits63 clock.asSecs ↔ Fits63 e := by
  have hnow : clock.date.secs = clock.asSecs.toInt64.toInt := rfl
  have hdate : (expiryDate e).secs = e.toInt64.toInt := rfl
  have hnowMax := clock.asSecs.toNat_lt
  have hdateMax := e.toNat_lt
  rw [toInt_toInt64] at hnow hdate
  by_cases hn : Fits63 clock.asSecs
  · refine iff_of_true hn ?_
    by_contra he
    rw [if_pos hn] at hnow
    rw [if_neg he] at hdate
    refine h.mpr (UInt64.le_of_lt (lt_of_fits63 hn he)) (Or.inl ?_)
    omega
  · refine iff_of_false hn ?_
    intro he
    rw [if_neg hn] at hnow
    rw [if_pos he] at hdate
    refine hn (he.of_le (h.mp ?_))
    rintro (hlater | ⟨hsame, _⟩)
    · omega
    · omega

/-- **`watch` agrees** iff nothing of this is in its way: its grace period is 90 days, the chain's 30, and it sees fractions
    of the second of the expiry. -/
theorem watch_agrees_iff (hfound : found.expiresAt = some e) (hgrace : g = gracePeriodEndsAt e) :
    (watchStatus calendar clock (some found)).map ExpiryStatus.state
        = some (inOrder (clock.asSecs ≤ e) (clock.asSecs ≤ g)) ↔
      InSight calendar clock e := by
  subst hgrace
  have hapart : (Fits63 clock.asSecs ↔ Fits63 e) →
      (((¬ clock.date.After (expiryDate e) ↔ clock.asSecs ≤ e) ∧
          (¬ clock.asSecs ≤ e →
            (¬ clock.date.After ((expiryDate e).plusDays 90) ↔ clock.asSecs ≤ gracePeriodEndsAt e))) ↔
        (¬ clock.date.After (expiryDate e) ∨
          ((expiryDate e).secs < clock.date.secs ∧ clock.date.secs ≤ ((expiryDate e).plusDays 30).secs) ∨
          clock.date.After ((expiryDate e).plusDays 90))) := by
    intro hside
    have hnanos : (expiryDate e).nanos = 0 := rfl
    rw [unexpired_iff hside, within_grace_iff hside]
    simp only [DateTime.After, DateTime.secs_plusDays, DateTime.nanos_plusDays, hnanos]
    omega
  constructor
  · intro h
    have hdated : Dated calendar clock e := dated_of_state hfound inOrder_ne_missing h
    rw [watch_state hfound hdated, Option.some.injEq, inOrder_eq_iff] at h
    have hside := side_of_agrees h.1
    exact ⟨hside, hdated, (hapart hside).mp h⟩
  · rintro ⟨hside, hdated, h⟩
    rw [watch_state hfound hdated, Option.some.injEq, inOrder_eq_iff]
    exact (hapart hside).mpr h

/-! ## All three -/

/-- What the commands are given about a name: a record of the export and one of the other two, with the times of its
    entry in the registry. -/
structure Shown (entry : RegistryEntry) (record : Sdk.RegistryEntry) (found : ResolutionResult) : Prop where
  expiresAt : record.expiresAt = entry.expiresAt
  graceEnd  : record.gracePeriodEndsAt = entry.gracePeriodEndsAt
  found     : found.expiresAt = some entry.expiresAt

/-- **The commands agree with `name_state`**, each under its own condition: for every entry with the default grace period,
    at every reading of the clock, whatever dates the calendar has and with overflow checks or without. -/
theorem statuses_agree_iff (calendar : Calendar) (overflowChecks : Bool) (s : Registry.State) (name : Bytes)
    (entry : RegistryEntry) (record : Sdk.RegistryEntry) (found : ResolutionResult) (clock : SystemTime)
    (hentry : s.entry name = some entry) (hgrace : entry.gracePeriodEndsAt = gracePeriodEndsAt entry.expiresAt)
    (hshown : Shown entry record found) :
    ((portfolioRecord clock record).state = some (Registry.nameState s name clock.asSecs) ↔
      SameSide entry.expiresAt entry.gracePeriodEndsAt clock.asSecs) ∧
    ((availability overflowChecks clock (some found)).bind Availability.state
        = some (Registry.nameState s name clock.asSecs) ↔
      FarFromExpiry overflowChecks entry.expiresAt entry.gracePeriodEndsAt clock.asSecs) ∧
    ((watchStatus calendar clock (some found)).map ExpiryStatus.state
        = some (Registry.nameState s name clock.asSecs) ↔
      InSight calendar clock entry.expiresAt) := by
  have hends : entry.expiresAt ≤ entry.gracePeriodEndsAt := by
    rw [hgrace]
    exact le_saturatingAdd _ _
  rw [nameState_eq hentry]
  refine ⟨?_, run_availability_agrees_iff overflowChecks hshown.found hends, watch_agrees_iff hshown.found hgrace⟩
  rw [← hshown.expiresAt, ← hshown.graceEnd]
  exact portfolio_agrees_iff

/-! ## A name that expires at 1700000000 -/

namespace Boundary

open Cast

/-- An entry with the default grace period. -/
def entryOf (expiresAt : UInt64) : RegistryEntry where
  name              := aliceXlm
  owner             := alice
  resolver          := none
  targetAddress     := none
  metadataUri       := none
  ttlSeconds        := 3600
  registeredAt      := 1600000000
  expiresAt         := expiresAt
  gracePeriodEndsAt := gracePeriodEndsAt expiresAt
  transferCount     := 0

/-- A registry with that one entry. -/
def registry (expiresAt : UInt64) : Registry.State :=
  { Registry.State.empty with entry := Registry.State.empty.entry.set aliceXlm (entryOf expiresAt) }

/-- The entry as the client library has it. -/
def recordOf (expiresAt : UInt64) : Sdk.RegistryEntry :=
  ⟨"alice.xlm", "GALICE", none, none, none, 3600, 1600000000, expiresAt, gracePeriodEndsAt expiresAt, 0⟩

/-- What it answers about the name. -/
def foundOf (expiresAt : UInt64) : ResolutionResult := ⟨"alice.xlm", some "GALICE", none, some expiresAt, false⟩

/-- A clock that stands at a full second. -/
def atSecs (secs : UInt64) : SystemTime := ⟨secs, 0, valid_zero⟩

/-- The calendar of `chrono`: from the year -262143 to 262142. -/
def gregorian : Calendar := ⟨-8334601228800, 8210266876799⟩

theorem entry_registry (expiresAt : UInt64) : (registry expiresAt).entry aliceXlm = some (entryOf expiresAt) :=
  Store.set_self Registry.State.empty.entry aliceXlm (entryOf expiresAt)

/-- Ninety days before the expiry the three agree with the chain. -/
theorem before_expiry_agrees :
    (portfolioRecord (atSecs 1692224000) (recordOf 1700000000)).state
        = some (Registry.nameState (registry 1700000000) aliceXlm 1692224000) ∧
      (availability true (atSecs 1692224000) (some (foundOf 1700000000))).bind Availability.state
        = some (Registry.nameState (registry 1700000000) aliceXlm 1692224000) ∧
      (watchStatus gregorian (atSecs 1692224000) (some (foundOf 1700000000))).map ExpiryStatus.state
        = some (Registry.nameState (registry 1700000000) aliceXlm 1692224000) := by
  obtain ⟨hportfolio, havailability, hwatch⟩ :=
    statuses_agree_iff gregorian true (registry 1700000000) aliceXlm (entryOf 1700000000) (recordOf 1700000000)
      (foundOf 1700000000) (atSecs 1692224000) (entry_registry 1700000000) rfl ⟨rfl, rfl, rfl⟩
  have hdated : Dated gregorian (atSecs 1692224000) 1700000000 :=
    ⟨by decide, by decide, by decide, fun _ => by decide⟩
  refine ⟨hportfolio.mpr ⟨by decide, by decide⟩, havailability.mpr (Or.inr (Or.inl (by decide))), ?_⟩
  exact hwatch.mpr ⟨by decide, hdated, Or.inl (by decide)⟩

/-- **Each of the three says what the chain does not**: `availability` takes the grace period for its end, and the month
    before the expiry for the grace period; for `watch` the grace period goes on when the chain has ended it; and in the
    export an end past 2⁶³ is over before it begins. -/
theorem statuses_disagree :
    (Registry.nameState (registry 1700000000) aliceXlm 1700000100 = .gracePeriod ∧
      availability true (atSecs 1700000100) (some (foundOf 1700000000))
        = some ⟨"claimable (expired, past grace period)", true⟩) ∧
    (Registry.nameState (registry 1700000000) aliceXlm 1699999900 = .active ∧
      availability true (atSecs 1699999900) (some (foundOf 1700000000))
        = some ⟨"grace-period (expired, in grace window)", false⟩) ∧
    (Registry.nameState (registry 1700000000) aliceXlm 1702678400 = .claimable ∧
      watchStatus gregorian (atSecs 1702678400) (some (foundOf 1700000000))
        = some (.inGracePeriod ⟨1700000000, 0, valid_zero⟩)) ∧
    (Registry.nameState (registry 9223372036854775708) aliceXlm 9223372036854775758 = .gracePeriod ∧
      (portfolioRecord (atSecs 9223372036854775758) (recordOf 9223372036854775708)).status = "expired") := by
  refine ⟨⟨?_, ?_⟩, ⟨?_, ?_⟩, ⟨?_, ?_⟩, ⟨?_, ?_⟩⟩
  all_goals decide +kernel

end Boundary

end XlmNs.Cli
