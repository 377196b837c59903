import Mathlib.Algebra.GroupWithZero.Nat
import Mathlib.Algebra.Ring.Int.Defs
import Mathlib.Tactic.Common
import XlmNs.Soroban.U64

/-!
# `Cli.Dates` — clock readings and dates

The clients read the system clock as whole seconds, cast to `i64` by some, or as a date of the `chrono` crate. Dates end:
what lies outside the calendar is no date, and arithmetic that leaves it panics. Where the calendar ends is a parameter;
everything else about a date is its seconds since 1970 and the nanoseconds of a second.
-/

namespace XlmNs.Cli

open Soroban

/-- A reading of the system clock, taken after 1970. -/
structure SystemTime where
  asSecs      : UInt64
  subsecNanos : Nat
  valid       : subsecNanos < 1000000000
deriving DecidableEq, Repr

/-- `DateTime<Utc>` -/
structure DateTime where
  secs  : Int
  nanos : Nat
  valid : nanos < 1000000000
deriving DecidableEq, Repr

/-- The beginning of a second. -/
theorem valid_zero : 0 < 1000000000 := by decide

/-- `self > other` -/
def DateTime.After (date other : DateTime) : Prop :=
  other.secs < date.secs ∨ date.secs = other.secs ∧ other.nanos < date.nanos

instance (date other : DateTime) : Decidable (date.After other) := inferInstanceAs (Decidable (_ ∨ _))

/-- The first and the last second that have a date. -/
structure Calendar where
  minSecs : Int
  maxSecs : Int
deriving DecidableEq, Repr

/-- A time the calendar has a date for. -/
def Calendar.Holds (calendar : Calendar) (secs : Int) : Prop := calendar.minSecs ≤ secs ∧ secs ≤ calendar.maxSecs

instance (calendar : Calendar) (secs : Int) : Decidable (calendar.Holds secs) := inferInstanceAs (Decidable (_ ∧ _))

/-- `Duration::days(days)`, in seconds -/
def daysSecs (days : Int) : Int := days * 86400

section Calendar

variable (calendar : Calendar)

/-- `DateTime::from_timestamp` -/
def Calendar.fromTimestamp (secs : Int64) (nanos : Nat) (valid : nanos < 1000000000) : Option DateTime :=
  if calendar.Holds secs.toInt then some ⟨secs.toInt, nanos, valid⟩ else none

/-- `date + Duration::days(days)`, or `-`; `none` where it panics. -/
def Calendar.addDays (date : DateTime) (days : Int) : Option DateTime :=
  if calendar.Holds (date.secs + daysSecs days) then some { date with secs := date.secs + daysSecs days } else none

/-- `Utc::now()`; `none` where it panics. -/
def Calendar.utcNow (clock : SystemTime) : Option DateTime :=
  calendar.fromTimestamp clock.asSecs.toInt64 clock.subsecNanos clock.valid

end Calendar

/-- `a + b` on `u64`: an overflow panics in a build that checks for it, and wraps in one that does not. -/
def plainAdd (overflowChecks : Bool) (a b : UInt64) : Option UInt64 :=
  if overflowChecks = true ∧ u64Max < a.toNat + b.toNat then none else some (a + b)

theorem plainAdd_fits (overflowChecks : Bool) {a b : UInt64} (h : a.toNat + b.toNat ≤ u64Max) :
    ∃ c, plainAdd overflowChecks a b = some c ∧ c.toNat = a.toNat + b.toNat := by
  refine ⟨a + b, if_neg fun hover => Nat.not_lt.mpr h hover.2, ?_⟩
  simp only [u64Max, UInt64.size] at h
  rw [UInt64.toNat_add]
  exact Nat.mod_eq_of_lt (by omega)

theorem plainAdd_panics {a b : UInt64} (h : u64Max < a.toNat + b.toNat) : plainAdd true a b = none := if_pos ⟨rfl, h⟩

/-- A sum that wraps is smaller than what was added to. -/
theorem plainAdd_wraps {a b : UInt64} (h : u64Max < a.toNat + b.toNat) :
    ∃ c, plainAdd false a b = some c ∧ c.toNat ≤ a.toNat := by
  refine ⟨a + b, if_neg fun hover => Bool.false_ne_true hover.1, ?_⟩
  have ha := a.toNat_lt
  have hb := b.toNat_lt
  simp only [u64Max, UInt64.size] at h
  rw [UInt64.toNat_add]
  omega

/-! ## `as i64` -/

/-- The half of `u64` that `i64` has, too. -/
def Fits63 (a : UInt64) : Prop := a.toNat < 2 ^ 63

instance (a : UInt64) : Decidable (Fits63 a) := inferInstanceAs (Decidable (_ < _))

/-- Values from 2⁶³ on become negative. -/
theorem toInt_toInt64 (a : UInt64) :
    a.toInt64.toInt = if Fits63 a then (a.toNat : Int) else (a.toNat : Int) - 2 ^ 64 := by
  have hcast : a.toInt64.toInt = if 2 * a.toNat < 2 ^ 64 then (a.toNat : Int) else (a.toNat : Int) - (2 ^ 64 : Nat) := rfl
  have hhalf : 2 * a.toNat < 2 ^ 64 ↔ Fits63 a := by
    show 2 * a.toNat < 2 ^ 64 ↔ a.toNat < 2 ^ 63
    omega
  rw [hcast]
  by_cases ha : Fits63 a
  · rw [if_pos ha, if_pos (hhalf.mpr ha)]
  · rw [if_neg ha, if_neg (fun h => ha (hhalf.mp h))]
    rfl

/-- **The cast keeps the order** on both sides of 2⁶³. -/
theorem cast_le_iff {a b : UInt64} (h : Fits63 a ↔ Fits63 b) : a.toInt64 ≤ b.toInt64 ↔ a ≤ b := by
  rw [Int64.le_iff_toInt_le, UInt64.le_iff_toNat_le, toInt_toInt64, toInt_toInt64]
  by_cases ha : Fits63 a
  · rw [if_pos ha, if_pos (h.mp ha)]
    omega
  · rw [if_neg ha, if_neg (fun hb => ha (h.mpr hb))]
    omega

/-- **Across it, the cast turns the order round.** -/
theorem cast_le_of_not {a b : UInt64} (ha : ¬ Fits63 a) (hb : Fits63 b) : a.toInt64 ≤ b.toInt64 := by
  have := a.toNat_lt
  rw [Int64.le_iff_toInt_le, toInt_toInt64, toInt_toInt64, if_neg ha, if_pos hb]
  omega

theorem not_cast_le {a b : UInt64} (ha : Fits63 a) (hb : ¬ Fits63 b) : ¬ a.toInt64 ≤ b.toInt64 := by
  have := b.toNat_lt
  rw [Int64.le_iff_toInt_le, toInt_toInt64, toInt_toInt64, if_pos ha, if_neg hb]
  omega

theorem lt_of_fits63 {a b : UInt64} (ha : Fits63 a) (hb : ¬ Fits63 b) : a < b := by
  rw [UInt64.lt_iff_toNat_lt]
  exact Nat.lt_of_lt_of_le ha (Nat.le_of_not_lt hb)

theorem Fits63.of_le {a b : UInt64} (hb : Fits63 b) (h : a ≤ b) : Fits63 a :=
  Nat.lt_of_le_of_lt (UInt64.le_iff_toNat_le.mp h) hb

end XlmNs.Cli
