import XlmNs.Soroban.U64

/-!
# `Common.Time` — lifecycle arithmetic (`xlm-ns-common/src/time.rs`)

Expiry and grace bounds are computed with saturating `u64` arithmetic; the lifecycle predicates compare a
bound with a time the caller chooses.
-/

namespace XlmNs

open Soroban

/-- `DEFAULT_TTL_SECONDS` -/
def defaultTtlSeconds : UInt64 := 31536000

/-- `GRACE_PERIOD_SECONDS`: thirty days. -/
def gracePeriodSeconds : UInt64 := 2592000

/-- `YEAR_SECONDS`: 365 days. -/
def yearSeconds : UInt64 := 31536000

/-- So many years from now, or the end of `u64`. -/
def expiryFromNow (nowUnix years : UInt64) : UInt64 :=
  saturatingAdd nowUnix (saturatingMul yearSeconds years)

/-- The end of a grace period of the given length. -/
def gracePeriodEndsAtWithDuration (expiryUnix gracePeriodSeconds : UInt64) : UInt64 :=
  saturatingAdd expiryUnix gracePeriodSeconds

/-- The end of a grace period of the default length. -/
def gracePeriodEndsAt (expiryUnix : UInt64) : UInt64 := gracePeriodEndsAtWithDuration expiryUnix gracePeriodSeconds

/-- A name is active up to and including its expiry. -/
def isActiveAt (expiresAt nowUnix : UInt64) : Prop := nowUnix ≤ expiresAt

instance (expiresAt nowUnix : UInt64) : Decidable (isActiveAt expiresAt nowUnix) :=
  inferInstanceAs (Decidable (_ ≤ _))

/-- Past the expiry, up to and including the end of the default grace period. -/
def withinGracePeriod (expiryUnix nowUnix : UInt64) : Prop :=
  expiryUnix < nowUnix ∧ nowUnix ≤ gracePeriodEndsAt expiryUnix

instance (expiryUnix nowUnix : UInt64) : Decidable (withinGracePeriod expiryUnix nowUnix) :=
  inferInstanceAs (Decidable (_ ∧ _))

/-- Past the end of the grace period. -/
def isClaimableAt (gracePeriodEndsAt nowUnix : UInt64) : Prop := gracePeriodEndsAt < nowUnix

instance (gracePeriodEndsAt nowUnix : UInt64) : Decidable (isClaimableAt gracePeriodEndsAt nowUnix) :=
  inferInstanceAs (Decidable (_ < _))

/-- A window is open at both its ends. -/
def isTimeWindowOpen (nowUnix startsAt endsAt : UInt64) : Prop := startsAt ≤ nowUnix ∧ nowUnix ≤ endsAt

instance (nowUnix startsAt endsAt : UInt64) : Decidable (isTimeWindowOpen nowUnix startsAt endsAt) :=
  inferInstanceAs (Decidable (_ ∧ _))

/-- An expiry is the start plus whole years, capped at `u64::MAX`. -/
theorem toNat_expiryFromNow (nowUnix years : UInt64) :
    (expiryFromNow nowUnix years).toNat
      = min (nowUnix.toNat + yearSeconds.toNat * years.toNat) u64Max := by
  have hn := toNat_le_u64Max nowUnix
  rw [expiryFromNow, toNat_saturatingAdd, toNat_saturatingMul]
  omega

end XlmNs
