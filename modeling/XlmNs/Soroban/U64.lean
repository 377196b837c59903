import Mathlib.Order.Basic
import Mathlib.Tactic.Common

/-!
# `Soroban.U64` — saturating arithmetic on `u64`

`saturating_add`, `saturating_sub` and `saturating_mul` as the Rust standard library has them, with their
value as a natural number (`toNat_*`), through which every inequality is reduced to linear arithmetic; and the plain
`+` and `-` on `u32`, with their overflow made visible.
-/

namespace Soroban

/-- `u64::MAX`. -/
def u64Max : Nat := UInt64.size - 1

/-- `u32::MAX`. -/
def u32Max : Nat := UInt32.size - 1

/-- `a.saturating_add(b)`. -/
def saturatingAdd (a b : UInt64) : UInt64 := UInt64.ofNat (min (a.toNat + b.toNat) u64Max)

/-- `a.saturating_sub(b)`. -/
def saturatingSub (a b : UInt64) : UInt64 := UInt64.ofNat (a.toNat - b.toNat)

/-- `a.saturating_mul(b)`. -/
def saturatingMul (a b : UInt64) : UInt64 := UInt64.ofNat (min (a.toNat * b.toNat) u64Max)

/-- `a.saturating_add(b)` on `u32`. -/
def saturatingAdd32 (a b : UInt32) : UInt32 := UInt32.ofNat (min (a.toNat + b.toNat) (UInt32.size - 1))

/-- `a + b` on `u32`; `none` where it overflows. -/
def checkedAdd32 (a b : UInt32) : Option UInt32 :=
  if a.toNat + b.toNat ≤ u32Max then some (UInt32.ofNat (a.toNat + b.toNat)) else none

/-- `a - b` on `u32`; `none` where it underflows. -/
def checkedSub32 (a b : UInt32) : Option UInt32 :=
  if b.toNat ≤ a.toNat then some (UInt32.ofNat (a.toNat - b.toNat)) else none

theorem toNat_le_u64Max (a : UInt64) : a.toNat ≤ u64Max := by
  have := a.toNat_lt
  simp only [u64Max, UInt64.size]
  omega

theorem toNat_saturatingAdd (a b : UInt64) :
    (saturatingAdd a b).toNat = min (a.toNat + b.toNat) u64Max := by
  unfold saturatingAdd
  exact UInt64.toNat_ofNat_of_lt' (by simp only [u64Max, UInt64.size]; omega)

theorem toNat_saturatingSub (a b : UInt64) : (saturatingSub a b).toNat = a.toNat - b.toNat := by
  have := a.toNat_lt
  unfold saturatingSub
  exact UInt64.toNat_ofNat_of_lt' (by simp only [UInt64.size]; omega)

theorem toNat_saturatingMul (a b : UInt64) :
    (saturatingMul a b).toNat = min (a.toNat * b.toNat) u64Max := by
  unfold saturatingMul
  exact UInt64.toNat_ofNat_of_lt' (by simp only [u64Max, UInt64.size]; omega)

theorem toNat_saturatingAdd32 (a b : UInt32) :
    (saturatingAdd32 a b).toNat = min (a.toNat + b.toNat) u32Max := by
  unfold saturatingAdd32 u32Max
  exact UInt32.toNat_ofNat_of_lt' (by simp only [UInt32.size]; omega)

theorem toNat_le_u32Max (a : UInt32) : a.toNat ≤ u32Max := by
  have := a.toNat_lt
  simp only [u32Max, UInt32.size]
  omega

theorem toNat_ofNat_u32 {n : Nat} (h : n ≤ u32Max) : (UInt32.ofNat n).toNat = n := by
  simp only [u32Max, UInt32.size] at h
  exact UInt32.toNat_ofNat_of_lt' (by simp only [UInt32.size]; omega)

theorem checkedAdd32_of_le {a b : UInt32} (h : a.toNat + b.toNat ≤ u32Max) :
    ∃ c, checkedAdd32 a b = some c ∧ c.toNat = a.toNat + b.toNat :=
  ⟨_, if_pos h, toNat_ofNat_u32 h⟩

theorem checkedSub32_of_le {a b : UInt32} (h : b.toNat ≤ a.toNat) :
    ∃ c, checkedSub32 a b = some c ∧ c.toNat = a.toNat - b.toNat :=
  ⟨_, if_pos h, toNat_ofNat_u32 (Nat.le_trans (Nat.sub_le _ _) (toNat_le_u32Max a))⟩

theorem toNat_of_checkedAdd32 {a b c : UInt32} (h : checkedAdd32 a b = some c) : c.toNat = a.toNat + b.toNat := by
  unfold checkedAdd32 at h
  split at h
  · rename_i hle
    obtain rfl := Option.some.inj h
    exact toNat_ofNat_u32 hle
  · cases h

theorem saturatingAdd_zero (a : UInt64) : saturatingAdd a 0 = a := by
  have := toNat_le_u64Max a
  apply UInt64.toNat.inj
  rw [toNat_saturatingAdd]
  show min (a.toNat + 0) u64Max = a.toNat
  omega

theorem le_saturatingAdd (a b : UInt64) : a ≤ saturatingAdd a b := by
  have := toNat_le_u64Max a
  rw [UInt64.le_iff_toNat_le, toNat_saturatingAdd]
  omega

theorem saturatingAdd_le_saturatingAdd {a a' b b' : UInt64} (ha : a ≤ a') (hb : b ≤ b') :
    saturatingAdd a b ≤ saturatingAdd a' b' := by
  have ha' := UInt64.le_iff_toNat_le.mp ha
  have hb' := UInt64.le_iff_toNat_le.mp hb
  rw [UInt64.le_iff_toNat_le, toNat_saturatingAdd, toNat_saturatingAdd]
  omega

/-- `a.max(b)`. -/
theorem toNat_max (a b : UInt64) : (max a b).toNat = max a.toNat b.toNat := by
  by_cases h : a ≤ b
  · have hmax : max a b = b := if_pos h
    rw [hmax, Nat.max_eq_right (UInt64.le_iff_toNat_le.mp h)]
  · have hmax : max a b = a := if_neg h
    rw [hmax, Nat.max_eq_left (Nat.le_of_lt (UInt64.lt_iff_toNat_lt.mp (UInt64.not_le.mp h)))]

theorem le_max_u64 (a b : UInt64) : a ≤ max a b := by
  show a ≤ if a ≤ b then b else a
  split
  · assumption
  · exact UInt64.le_refl a

end Soroban
