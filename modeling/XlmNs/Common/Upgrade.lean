import Mathlib.Data.List.Nodup
import XlmNs.Common.Types

/-!
# `Common.Upgrade` — the body six contracts share in `upgrade`

The admin signs, the target version is decoded from the caller's bytes, `migrate(v, v + 1)` runs for every `v` from
the stored version up to the target, and the target is stored. `upgradeTo` keeps the calls of `migrate`, which change
nothing themselves; `migrations` is the loop that makes them. `upgradeStoring` is what a contract does with the result.
-/

namespace XlmNs

open Soroban

/-- `get_version`: a contract that stored none is at the first. -/
def getVersion (stored : Option UInt32) : UInt32 := stored.getD contractVersion

/-- `for v in current_version..target_version { migrate(v, v + 1, …) }`: the versions each call is given. -/
def migrations (currentVersion targetVersion : UInt32) : List (UInt32 × UInt32) :=
  (List.range' currentVersion.toNat (targetVersion.toNat - currentVersion.toNat)).map
    (fun v => (UInt32.ofNat v, UInt32.ofNat v + 1))

/-- `upgrade` of a contract with this `admin` and stored version: the version it stores, and its `migrate` calls. -/
def upgradeTo {ε : Type} (env : Env) (admin : Option Address) (upgradeFailed : ε) (stored : Option UInt32)
    (migrationData : Bytes) : Outcome ε (UInt32 × List (UInt32 × UInt32)) := do
  let admin ← okOr admin upgradeFailed
  requireAuth env admin
  let currentVersion := getVersion stored
  let targetVersion := decodeTargetVersion migrationData
  -- the range is empty when the target is below the current version
  return (targetVersion, migrations currentVersion targetVersion)

theorem upgradeTo_eq_ok {ε : Type} {env : Env} {admin : Option Address} {upgradeFailed : ε}
    {stored : Option UInt32} {migrationData : Bytes} {version : UInt32} {calls : List (UInt32 × UInt32)} :
    upgradeTo env admin upgradeFailed stored migrationData = .ok (version, calls) ↔
      (∃ a, admin = some a ∧ env.Authorises a) ∧ decodeTargetVersion migrationData = version ∧
        migrations (getVersion stored) (decodeTargetVersion migrationData) = calls := by
  simp only [upgradeTo, bind_eq_ok, okOr_eq_ok, requireAuth_eq_ok, exists_const, pure_eq_ok, Prod.mk.injEq]
  constructor
  · rintro ⟨a, hadmin, hauth, hversion, hcalls⟩
    exact ⟨⟨a, hadmin, hauth⟩, hversion, hcalls⟩
  · rintro ⟨⟨a, hadmin, hauth⟩, hversion, hcalls⟩
    exact ⟨a, hadmin, hauth, hversion, hcalls⟩

/-- `upgrade` of a contract that keeps its version with `store`. -/
def upgradeStoring {ε σ : Type} (store : UInt32 → σ) (env : Env) (admin : Option Address) (upgradeFailed : ε)
    (stored : Option UInt32) (migrationData : Bytes) : Outcome ε σ := do
  let (version, _) ← upgradeTo env admin upgradeFailed stored migrationData
  return store version

theorem upgradeStoring_eq_ok {ε σ : Type} {store : UInt32 → σ} {env : Env} {admin : Option Address} {upgradeFailed : ε}
    {stored : Option UInt32} {migrationData : Bytes} {s' : σ} :
    upgradeStoring store env admin upgradeFailed stored migrationData = .ok s' ↔
      (∃ a, admin = some a ∧ env.Authorises a) ∧ s' = store (decodeTargetVersion migrationData) := by
  simp only [upgradeStoring, bind_eq_ok, Prod.exists, upgradeTo_eq_ok, pure_eq_ok]
  constructor
  · rintro ⟨_, _, ⟨hadmin, rfl, _⟩, rfl⟩
    exact ⟨hadmin, rfl⟩
  · rintro ⟨hadmin, rfl⟩
    exact ⟨_, _, ⟨hadmin, rfl, rfl⟩, rfl⟩

/-! ## The migrations between two versions -/

theorem migrations_self (v : UInt32) : migrations v v = [] := by
  simp [migrations]

/-- **Migrations compose**: those up to `b` and on from there are those all the way. -/
theorem migrations_append {a b c : UInt32} (hab : a ≤ b) (hbc : b ≤ c) :
    migrations a b ++ migrations b c = migrations a c := by
  have hab' := UInt32.le_iff_toNat_le.mp hab
  have hbc' := UInt32.le_iff_toNat_le.mp hbc
  have hstart : b.toNat = a.toNat + (b.toNat - a.toNat) := by omega
  have hlength : c.toNat - a.toNat = (b.toNat - a.toNat) + (c.toNat - b.toNat) := by omega
  unfold migrations
  rw [← List.map_append, hlength, ← List.range'_append_1, ← hstart]

theorem mem_migrations {a b v : UInt32} (hav : a ≤ v) (hvb : v < b) : (v, v + 1) ∈ migrations a b := by
  have hav' := UInt32.le_iff_toNat_le.mp hav
  have hvb' := UInt32.lt_iff_toNat_lt.mp hvb
  unfold migrations
  refine List.mem_map.mpr ⟨v.toNat, List.mem_range'_1.mpr (by omega), ?_⟩
  rw [UInt32.ofNat_toNat]

theorem nodup_migrations (a b : UInt32) : (migrations a b).Nodup := by
  have hb := b.toNat_lt
  unfold migrations
  refine List.Nodup.map_on ?_ (List.nodup_range')
  intro v hv u hu heq
  have hv' := List.mem_range'_1.mp hv
  have hu' := List.mem_range'_1.mp hu
  -- both are below the target, so nothing wraps
  have hofNat := congrArg UInt32.toNat (congrArg Prod.fst heq)
  rwa [UInt32.toNat_ofNat_of_lt' (by simp only [UInt32.size]; omega),
    UInt32.toNat_ofNat_of_lt' (by simp only [UInt32.size]; omega)] at hofNat

/-- **Each intermediate migration is made once.** -/
theorem count_migrations {a b v : UInt32} (hav : a ≤ v) (hvb : v < b) : (migrations a b).count (v, v + 1) = 1 :=
  List.count_eq_one_of_mem (nodup_migrations a b) (mem_migrations hav hvb)

end XlmNs
