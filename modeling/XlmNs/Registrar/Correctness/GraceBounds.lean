import XlmNs.Registrar.Steps
import XlmNs.Soroban.Machine

/-!
# `Registrar.Correctness.GraceBounds` — grace periods stay between a day and a year

The admin may change the grace period at any time, within its bounds; a record keeps the one it was written with.
`GraceBounded` holds of every reachable state, and one year, the least a sale prolongs a name by, makes up for
any difference between the two (`grace_never_shrinks`).
-/

namespace XlmNs.Registrar

open Soroban

variable {ω : Type} {out : Outside ω} {self : Address} {env : Env} {s s' : State} {w w' : ω}
variable {t : Tx Call} {years nowUnix : UInt64} {record : RegistrationRecord}

/-- The grace period of a record is at most the largest that can be configured. -/
structure RecordBounded (record : RegistrationRecord) : Prop where
  ordered : record.expiresAt ≤ record.gracePeriodEndsAt
  within  : record.gracePeriodEndsAt ≤ saturatingAdd record.expiresAt maxGracePeriodSeconds

/-- **The registrar's grace periods**, the configured one and those on record. -/
structure GraceBounded (s : State) : Prop where
  least  : minGracePeriodSeconds ≤ getGracePeriodSeconds s
  most   : getGracePeriodSeconds s ≤ maxGracePeriodSeconds
  record : ∀ name record, s.registration name = some record → RecordBounded record

/-- The default grace period is one that `set_grace_period` would accept. -/
theorem graceBounded_initialized (registry admin : Address) : GraceBounded (State.initialized registry admin) := by
  have hdefault : minGracePeriodSeconds ≤ XlmNs.gracePeriodSeconds ∧
      XlmNs.gracePeriodSeconds ≤ maxGracePeriodSeconds := by decide
  refine ⟨hdefault.1, hdefault.2, ?_⟩
  intro name record hrecord
  cases hrecord

/-! ## One step -/

/-- Only `set_grace_period` changes the configured grace period, and only within the bounds. -/
theorem step_grace (h : step out self (s, w) t = .ok (s', w')) :
    getGracePeriodSeconds s' = getGracePeriodSeconds s ∨
      minGracePeriodSeconds ≤ getGracePeriodSeconds s' ∧ getGracePeriodSeconds s' ≤ maxGracePeriodSeconds := by
  cases hsale : t.call.isSale with
  | false => exact (step_administers h hsale).grace
  | true =>
      obtain ⟨env, c⟩ := t
      cases c with
      | register label owner years maxPrice nowUnix =>
          obtain ⟨_, _, _, _, _, _, _, _, _, _, rfl, _⟩ := register_eq_ok.mp h
          exact Or.inl rfl
      | renew name caller years payment nowUnix =>
          obtain ⟨_, _, _, _, _, _, _, _, _, rfl, _⟩ := renew_eq_ok.mp h
          exact Or.inl rfl
      | extendDuringGrace name caller years payment nowUnix =>
          obtain ⟨_, _, _, _, _, _, _, _, _, _, rfl, _⟩ := extendDuringGrace_eq_ok.mp h
          exact Or.inl rfl
      | _ => cases hsale

/-- The bounds a sale computes are ordered and within the largest grace period. -/
theorem GraceBounded.computed (h : GraceBounded s) (expiryUnix : UInt64) :
    expiryUnix ≤ computeGracePeriodEndsAt s expiryUnix ∧
      computeGracePeriodEndsAt s expiryUnix ≤ saturatingAdd expiryUnix maxGracePeriodSeconds :=
  ⟨le_saturatingAdd _ _, saturatingAdd_le_saturatingAdd (UInt64.le_refl _) h.most⟩

/-- A sale writes one record, with bounds just computed. -/
theorem GraceBounded.sold (h : GraceBounded s) {name : Bytes} {new : RegistrationRecord}
    (hgrace : new.gracePeriodEndsAt = computeGracePeriodEndsAt s new.expiresAt) {n : Bytes}
    (hrecord : s.registration.set name new n = some record) : RecordBounded record := by
  rcases Store.set_eq_some.mp hrecord with ⟨_, rfl⟩ | ⟨_, hold⟩
  · obtain ⟨hordered, hwithin⟩ := h.computed new.expiresAt
    constructor
    · rw [hgrace]
      exact hordered
    · rw [hgrace]
      exact hwithin
  · exact h.record n record hold

theorem preserves_graceBounded (out : Outside ω) (self : Address) :
    Preserves (step out self) (fun sw => GraceBounded sw.1) := by
  rintro ⟨s, w⟩ t ⟨s', w'⟩ hs hok
  have hgrace : minGracePeriodSeconds ≤ getGracePeriodSeconds s' ∧
      getGracePeriodSeconds s' ≤ maxGracePeriodSeconds := by
    rcases step_grace hok with hsame | hbounds
    · rw [hsame]
      exact ⟨hs.least, hs.most⟩
    · exact hbounds
  refine ⟨hgrace.1, hgrace.2, ?_⟩
  intro n record hrecord
  -- the records are bounded by the configuration at their own sale, whatever is configured now
  have hc := step_change hok
  generalize t.call = c at hc
  cases hc with
  | quiet hsame _ _ _ _ _ _ =>
      rw [hsame] at hrecord
      exact hs.record n record hrecord
  | register _ _ _ _ _ hstorage _ =>
      rw [hstorage] at hrecord
      exact hs.sold rfl hrecord
  | renewal hr _ =>
      rw [hr.storage] at hrecord
      exact hs.sold rfl hrecord

/-! ## Renewals never shrink the grace period -/

theorem one_le_years (h : validateRegistrationYearsSoroban years = .ok ()) : 1 ≤ years.toNat := by
  unfold validateRegistrationYearsSoroban at h
  split at h
  · rename_i hrange
    exact UInt64.le_iff_toNat_le.mp hrange.1
  · cases h

theorem le_baseTime (record : RegistrationRecord) (nowUnix : UInt64) :
    record.expiresAt ≤ baseTime record nowUnix ∧ nowUnix ≤ baseTime record nowUnix := by
  unfold baseTime
  split
  · rename_i hlt
    exact ⟨UInt64.le_refl _, UInt64.le_of_lt hlt⟩
  · rename_i hnot
    exact ⟨UInt64.not_lt.mp hnot, UInt64.le_refl _⟩

theorem le_expiryFromNow (base years : UInt64) : base ≤ expiryFromNow base years := le_saturatingAdd _ _

/-- **The new expiry alone is past the old grace period**: a year is at least as long as any grace period. -/
theorem grace_le_expiry (h : RecordBounded record) (hyears : validateRegistrationYearsSoroban years = .ok ())
    (nowUnix : UInt64) : record.gracePeriodEndsAt ≤ expiryFromNow (baseTime record nowUnix) years := by
  have hwithin := UInt64.le_iff_toNat_le.mp h.within
  have hbase := UInt64.le_iff_toNat_le.mp (le_baseTime record nowUnix).1
  have hone := one_le_years hyears
  -- the largest grace period is exactly one year, and at least one year is added, both saturating
  have hyear : maxGracePeriodSeconds.toNat = yearSeconds.toNat := rfl
  have hmul : yearSeconds.toNat * 1 ≤ yearSeconds.toNat * years.toNat := Nat.mul_le_mul_left _ hone
  rw [toNat_saturatingAdd] at hwithin
  rw [UInt64.le_iff_toNat_le, toNat_expiryFromNow]
  omega

/-- Whatever grace period is configured now, a renewal does not shorten the one on record. -/
theorem grace_never_shrinks (h : RecordBounded record)
    (hyears : validateRegistrationYearsSoroban years = .ok ()) (s : State) (nowUnix : UInt64) :
    record.gracePeriodEndsAt
      ≤ computeGracePeriodEndsAt s (expiryFromNow (baseTime record nowUnix) years) :=
  UInt64.le_trans (grace_le_expiry h hyears nowUnix) (le_saturatingAdd _ _)

end XlmNs.Registrar
