import XlmNs.Common.OffChain
import XlmNs.Common.Time

/-!
# `Common.NameRecord` — the shared record and its phases (`xlm-ns-common/src/types.rs`)

A record is active, then in its grace period, then claimable. The last predicate reads the end of the grace period from
the record, the one before it computes that end again from the expiry and the default length: `phases_partition_iff` says
for which records the three still share out the time.
-/

namespace XlmNs

open Soroban

/-- The record the off-chain crate shares. -/
structure NameRecord where
  label             : String
  tld               : Tld
  owner             : String
  resolver          : Option String
  targetAddress     : Option String
  ttlSeconds        : UInt64
  registeredAt      : UInt64
  expiresAt         : UInt64
  gracePeriodEndsAt : UInt64
deriving DecidableEq, Repr

namespace NameRecord

/-- A record without a resolver, with the default time to live. -/
def new (label owner : String) (targetAddress : Option String) (registeredAt expiresAt gracePeriodEndsAt : UInt64) :
    NameRecord where
  label             := label
  tld               := .xlm
  owner             := owner
  resolver          := none
  targetAddress     := targetAddress
  ttlSeconds        := defaultTtlSeconds
  registeredAt      := registeredAt
  expiresAt         := expiresAt
  gracePeriodEndsAt := gracePeriodEndsAt

/-- The record has not expired. -/
def isActiveAt (record : NameRecord) (nowUnix : UInt64) : Prop := XlmNs.isActiveAt record.expiresAt nowUnix

/-- The grace period is computed again, with the default length. -/
def isInGracePeriod (record : NameRecord) (nowUnix : UInt64) : Prop := withinGracePeriod record.expiresAt nowUnix

/-- The end of the grace period is the stored one. -/
def isClaimableAt (record : NameRecord) (nowUnix : UInt64) : Prop := XlmNs.isClaimableAt record.gracePeriodEndsAt nowUnix

/-- Where the grace period of the default length ends. -/
def nextGracePeriodEndsAt (expiresAt : UInt64) : UInt64 := XlmNs.gracePeriodEndsAt expiresAt

/-! ## Phases -/

/-- The phases of a record, as they should follow each other. -/
inductive Phase
  | active
  | gracePeriod
  | claimable
deriving DecidableEq, Repr

/-- The predicate for a phase. -/
def InPhase (record : NameRecord) (nowUnix : UInt64) : Phase → Prop
  | .active      => record.isActiveAt nowUnix
  | .gracePeriod => record.isInGracePeriod nowUnix
  | .claimable   => record.isClaimableAt nowUnix

/-- The place of a phase in their order. -/
def Phase.rank : Phase → Nat
  | .active      => 0
  | .gracePeriod => 1
  | .claimable   => 2

/-- No later time is in an earlier phase. -/
def Ordered (record : NameRecord) : Prop :=
  ∀ now later phase phase', now ≤ later → record.InPhase now phase → record.InPhase later phase' →
    phase.rank ≤ phase'.rank

/-- **The phases share out the time**: there is exactly one at a time, and they follow each other. -/
structure Partitioned (record : NameRecord) : Prop where
  unique  : ∀ now, ∃! phase, record.InPhase now phase
  ordered : record.Ordered

variable {record : NameRecord} {now : UInt64}

/-- Until its expiry a record is active and nothing else. -/
theorem inPhase_active (hends : record.expiresAt ≤ record.gracePeriodEndsAt) (h : now ≤ record.expiresAt) (phase : Phase) :
    record.InPhase now phase ↔ phase = .active := by
  cases phase with
  | active => exact iff_of_true h rfl
  | gracePeriod => exact iff_of_false (fun hin => UInt64.not_lt.mpr h hin.1) (by decide)
  | claimable =>
      refine iff_of_false ?_ (by decide)
      intro hin
      exact UInt64.not_lt.mpr (UInt64.le_trans h hends) hin

/-- Past its expiry only the other two are open. -/
theorem inPhase_past (h : record.expiresAt < now) (phase : Phase) :
    record.InPhase now phase ↔
      phase = .gracePeriod ∧ now ≤ saturatingAdd record.expiresAt gracePeriodSeconds ∨
        phase = .claimable ∧ record.gracePeriodEndsAt < now := by
  cases phase with
  | active => simpa [InPhase, isActiveAt, XlmNs.isActiveAt] using h
  | gracePeriod => simp [InPhase, isInGracePeriod, withinGracePeriod, XlmNs.gracePeriodEndsAt,
      gracePeriodEndsAtWithDuration, h]
  | claimable => simp [InPhase, isClaimableAt, XlmNs.isClaimableAt]

/-- **There is exactly one phase at a time** before the expiry, and where the two ends of the grace period agree. -/
theorem unique_phase_iff (hends : record.expiresAt ≤ record.gracePeriodEndsAt) :
    (∃! phase, record.InPhase now phase) ↔
      now ≤ record.expiresAt ∨
        (now ≤ saturatingAdd record.expiresAt gracePeriodSeconds ↔ now ≤ record.gracePeriodEndsAt) := by
  by_cases hactive : now ≤ record.expiresAt
  · refine iff_of_true ⟨.active, (inPhase_active hends hactive _).mpr rfl, ?_⟩ (Or.inl hactive)
    intro phase hphase
    exact (inPhase_active hends hactive phase).mp hphase
  · have hpast : record.expiresAt < now := UInt64.not_le.mp hactive
    rw [or_iff_right hactive]
    simp only [inPhase_past hpast, ← UInt64.not_le]
    by_cases hgrace : now ≤ saturatingAdd record.expiresAt gracePeriodSeconds
    · by_cases hheld : now ≤ record.gracePeriodEndsAt
      · simp [hgrace, hheld]
      · -- in the grace period and claimable
        simp only [hgrace, hheld, iff_false, not_true_eq_false, not_false_eq_true, and_true]
        rintro ⟨phase, _, hunique⟩
        exact absurd ((hunique .gracePeriod (Or.inl rfl)).trans (hunique .claimable (Or.inr rfl)).symm) (by decide)
    · by_cases hheld : now ≤ record.gracePeriodEndsAt
      · simp [hgrace, hheld]
      · simp [hgrace, hheld]

/-- The phases follow each other as long as the default grace period does not outlast the stored one. -/
theorem ordered_of_le (hends : record.expiresAt ≤ record.gracePeriodEndsAt)
    (h : saturatingAdd record.expiresAt gracePeriodSeconds ≤ record.gracePeriodEndsAt) : record.Ordered := by
  intro now later phase phase' hle hnow hlater
  by_cases hactive : later ≤ record.expiresAt
  · rw [inPhase_active hends (UInt64.le_trans hle hactive)] at hnow
    rw [hnow]
    exact Nat.zero_le _
  · rcases (inPhase_past (UInt64.not_le.mp hactive) phase').mp hlater with ⟨rfl, hgrace⟩ | ⟨rfl, _⟩
    · cases phase with
      | active | gracePeriod => decide
      | claimable =>
          -- what is claimable before the end of the default grace period was so before the stored end
          exact absurd hnow (UInt64.not_lt.mpr (UInt64.le_trans hle (UInt64.le_trans hgrace h)))
    · cases phase <;> decide

/-- **The phases share out the time** iff the stored grace period ends where one of the default length does. -/
theorem partitioned_iff (hends : record.expiresAt ≤ record.gracePeriodEndsAt) :
    record.Partitioned ↔ record.gracePeriodEndsAt = saturatingAdd record.expiresAt gracePeriodSeconds := by
  have hdefault : record.expiresAt ≤ saturatingAdd record.expiresAt gracePeriodSeconds := le_saturatingAdd _ _
  constructor
  · rintro ⟨hunique, _⟩
    apply UInt64.le_antisymm
    · rcases (unique_phase_iff hends).mp (hunique record.gracePeriodEndsAt) with hearly | hsame
      · exact UInt64.le_trans hearly hdefault
      · exact hsame.mpr (UInt64.le_refl _)
    · rcases (unique_phase_iff hends).mp (hunique (saturatingAdd record.expiresAt gracePeriodSeconds)) with hearly | hsame
      · exact UInt64.le_trans hearly hends
      · exact hsame.mp (UInt64.le_refl _)
  · intro hsame
    constructor
    · intro now
      rw [unique_phase_iff hends, hsame]
      exact Or.inr Iff.rfl
    · apply ordered_of_le hends
      rw [hsame]
      exact UInt64.le_refl _

/-- **With a grace period of another length they do only where `u64` ends**: there both ends are its maximum. -/
theorem partitioned_of_duration {graceSeconds : UInt64}
    (hgrace : record.gracePeriodEndsAt = gracePeriodEndsAtWithDuration record.expiresAt graceSeconds) :
    record.Partitioned ↔ graceSeconds = gracePeriodSeconds ∨
      u64Max ≤ record.expiresAt.toNat + min graceSeconds.toNat gracePeriodSeconds.toNat := by
  have hends : record.expiresAt ≤ record.gracePeriodEndsAt := by
    rw [hgrace]
    exact le_saturatingAdd _ _
  have hexpires := toNat_le_u64Max record.expiresAt
  rw [partitioned_iff hends, hgrace, gracePeriodEndsAtWithDuration, ← UInt64.toNat_inj, ← UInt64.toNat_inj,
    toNat_saturatingAdd, toNat_saturatingAdd]
  omega

/-- **The phases of a record whose grace period ends after its expiry**: they share out the time iff that end is the one
    that `is_in_grace_period` computes; and at a single time there is exactly one phase iff the record has not expired,
    or the two ends are on the same side. -/
theorem phases_partition_iff (record : NameRecord) (hends : record.expiresAt ≤ record.gracePeriodEndsAt) :
    (record.Partitioned ↔ record.gracePeriodEndsAt = saturatingAdd record.expiresAt gracePeriodSeconds) ∧
      ∀ now, (∃! phase, record.InPhase now phase) ↔
        now ≤ record.expiresAt ∨
          (now ≤ saturatingAdd record.expiresAt gracePeriodSeconds ↔ now ≤ record.gracePeriodEndsAt) :=
  ⟨partitioned_iff hends, fun _ => unique_phase_iff hends⟩

/-! ## Grace periods of 30 days, one day and a year -/

/-- A record that expires at 1000000. -/
def expiring (gracePeriodEndsAt : UInt64) : NameRecord := new "alice" "GALICE" none 0 1000000 gracePeriodEndsAt

/-- The default is shared out. -/
theorem thirty_days_partitioned : (expiring (nextGracePeriodEndsAt 1000000)).Partitioned :=
  (phases_partition_iff (expiring (nextGracePeriodEndsAt 1000000)) (by decide)).1.mpr (by decide)

/-- **A grace period of a day ends twice, and one of a year leaves a gap**: both are lengths an admin may set. -/
theorem other_lengths_not_partitioned :
    1000000 ≤ gracePeriodEndsAtWithDuration 1000000 86400 ∧
      (expiring (gracePeriodEndsAtWithDuration 1000000 86400)).InPhase 1086401 .gracePeriod ∧
      (expiring (gracePeriodEndsAtWithDuration 1000000 86400)).InPhase 1086401 .claimable ∧
      ∀ phase, ¬ (expiring (gracePeriodEndsAtWithDuration 1000000 31536000)).InPhase 3592001 phase := by
  refine ⟨by decide, ⟨by decide, by decide⟩, ?_, ?_⟩
  · show gracePeriodEndsAtWithDuration 1000000 86400 < 1086401
    decide
  · intro phase
    rw [inPhase_past (by decide)]
    rintro (⟨_, hgrace⟩ | ⟨_, hclaimable⟩)
    · exact absurd hgrace (by decide)
    · exact absurd hclaimable (by decide)

end NameRecord

end XlmNs
