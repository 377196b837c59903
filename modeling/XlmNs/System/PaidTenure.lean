import XlmNs.System.RegistrarRegistry

/-!
# `System.PaidTenure` — does a sale buy more time than was paid for?

A registration for `years` at ledger time `T` should end by `T + years · YEAR`, a renewal by
`max previous T + years · YEAR`. The registrar counts the years from the `now_unix` it is given, not from the
ledger clock. `paid_tenure_iff`: over a run, each sale stays within what was paid exactly when the time it is
counted from is not ahead of the one it should be counted from, unless the promised bound is past `u64::MAX`
anyway.
-/

namespace XlmNs.RegistrarRegistry

open Soroban

variable {ω : Type} {out : Registry.Outside ω} {d : Deployment} {env : Env} {s s' : State ω}

/-! ## The promise -/

/-- The end of a tenure of `years` counted from `start`, on the real line. -/
def paidUntil (start years : UInt64) : Nat := start.toNat + yearSeconds.toNat * years.toNat

/-- After the transaction both contracts have `name` expire by `bound`. -/
def ExpiresBy (s : State ω) (name : Bytes) (bound : Nat) : Prop :=
  (∃ record, s.registrar.registration name = some record ∧ record.expiresAt.toNat ≤ bound) ∧
    ∃ e, s.registry.entry name = some e ∧ e.expiresAt.toNat ≤ bound

/-- **Paid tenure** of one committed transaction, at ledger time `now`. -/
def WithinPaid (now : UInt64) (s s' : State ω) : Call → Prop
  | .registrar (.register label _ years _ _) =>
      ∀ name, buildXlmName label = .ok name → ExpiresBy s' name (paidUntil now years)
  | .registrar (.renew name _ years _ _) | .registrar (.extendDuringGrace name _ years _ _) =>
      ∀ record, s.registrar.registration name = some record →
        ExpiresBy s' name (paidUntil (max record.expiresAt now) years)
  | _ => True

/-- `nowUnix` is not ahead of `start`, or the bound paid for cannot be exceeded by a `u64`. -/
def NotAhead (start nowUnix years : UInt64) : Prop :=
  nowUnix ≤ start ∨ u64Max ≤ paidUntil start years

/-- The `now_unix` of a sale is not ahead of the time its years should be counted from. -/
def CountsFromClock (now : UInt64) (s : State ω) : Call → Prop
  | .registrar (.register _ _ years _ nowUnix) => NotAhead now nowUnix years
  | .registrar (.renew name _ years _ nowUnix)
  | .registrar (.extendDuringGrace name _ years _ nowUnix) =>
      ∀ record, s.registrar.registration name = some record →
        NotAhead (max record.expiresAt now) nowUnix years
  | _ => True

/-! ## Arithmetic of one sale -/

/-- An expiry counted from `base` is within what was paid from `start` iff `base` is not ahead of `start`. -/
theorem expiryFromNow_le_iff (start base years : UInt64) :
    (expiryFromNow base years).toNat ≤ paidUntil start years ↔ NotAhead start base years := by
  have hbase := toNat_le_u64Max base
  unfold NotAhead
  rw [toNat_expiryFromNow, paidUntil, UInt64.le_iff_toNat_le]
  omega

/-- `baseTime` is ahead of `max expiry now` only if `nowUnix` is. -/
theorem notAhead_baseTime_iff (record : Registrar.RegistrationRecord) (now nowUnix years : UInt64) :
    NotAhead (max record.expiresAt now) (Registrar.baseTime record nowUnix) years ↔
      NotAhead (max record.expiresAt now) nowUnix years := by
  have hmax := le_max_u64 record.expiresAt now
  unfold NotAhead Registrar.baseTime
  split
  · -- the years are counted from the old expiry, which is not ahead, and neither is `nowUnix`
    rename_i hlt
    have hnow : nowUnix ≤ max record.expiresAt now := UInt64.le_trans (UInt64.le_of_lt hlt) hmax
    exact or_congr_left (iff_of_true hmax hnow)
  · exact Iff.rfl

/-! ## One step -/

/-- After a sale both copies hold one expiry, so one bound decides. -/
theorem expiresBy_iff {name : Bytes} {bound : Nat} {record : Registrar.RegistrationRecord}
    {e : RegistryEntry} (hr : s.registrar.registration name = some record)
    (he : s.registry.entry name = some e) (hsame : e.expiresAt = record.expiresAt) :
    ExpiresBy s name bound ↔ record.expiresAt.toNat ≤ bound := by
  unfold ExpiresBy
  constructor
  · rintro ⟨⟨record', hr', hle⟩, _⟩
    obtain rfl := Option.some.inj (hr.symm.trans hr')
    exact hle
  · intro hle
    have hle' : e.expiresAt.toNat ≤ bound := by
      rw [hsame]
      exact hle
    exact ⟨⟨record, hr, hle⟩, e, he, hle'⟩

/-- **One committed transaction, exactly.** -/
theorem Effect.withinPaid_iff {c : Call} (hc : Effect s s' env c) (now : UInt64) :
    WithinPaid now s s' c ↔ CountsFromClock now s c := by
  cases hc with
  | @quiet c _ _ hcall =>
      cases c with
      | register | renew | extendDuringGrace => cases hcall
      | _ => exact Iff.rfl
  | direct => exact Iff.rfl
  | @sale label name owner years maxPrice nowUnix hname hrecord hentry =>
      have hr := hrecord ▸ Store.set_self s.registrar.registration name _
      have he := hentry ▸ Store.set_self s.registry.entry name _
      have hbound : ExpiresBy s' name (paidUntil now years) ↔ NotAhead now nowUnix years :=
        (expiresBy_iff hr he rfl).trans (expiryFromNow_le_iff now nowUnix years)
      constructor
      · intro hpaid
        exact hbound.mp (hpaid name hname)
      · intro hclock name' hname'
        obtain rfl : name = name' := Except.ok.inj (hname.symm.trans hname')
        exact hbound.mpr hclock
  | @renewal c name caller years payment nowUnix record e hcall hold hold' _ _ hrecord hentry =>
      have hr := hrecord ▸ Store.set_self s.registrar.registration name _
      have he := hentry ▸ Store.set_self s.registry.entry name _
      have hbound : ExpiresBy s' name (paidUntil (max record.expiresAt now) years) ↔
          NotAhead (max record.expiresAt now) nowUnix years :=
        (expiresBy_iff hr he rfl).trans
          ((expiryFromNow_le_iff _ _ years).trans (notAhead_baseTime_iff record now nowUnix years))
      have hone : (∀ record', s.registrar.registration name = some record' →
            ExpiresBy s' name (paidUntil (max record'.expiresAt now) years)) ↔
          ∀ record', s.registrar.registration name = some record' →
            NotAhead (max record'.expiresAt now) nowUnix years := by
        rw [Store.forall_value_iff hold, Store.forall_value_iff hold]
        exact hbound
      rcases hcall with rfl | rfl
      · exact hone
      · exact hone

/-! ## Whole runs -/

/-- A transaction that commits stays within what was paid. -/
def PaidTenure (out : Registry.Outside ω) (d : Deployment) (s : State ω) (t : Tx Call) : Prop :=
  ∀ s', step out d s t = .ok s' → WithinPaid t.env.timestamp s s' t.call

/-- A transaction that commits counts its years from a time not ahead of the ledger clock. -/
def ClockTenure (out : Registry.Outside ω) (d : Deployment) (s : State ω) (t : Tx Call) : Prop :=
  ∀ s', step out d s t = .ok s' → CountsFromClock t.env.timestamp s t.call

/-- **Every sale of a run stays within what was paid iff none is counted from a time ahead of the clock.** -/
theorem paid_tenure_iff (out : Registry.Outside ω) (d : Deployment) (admin : Address) (w : ω)
    (ts : List (Tx Call)) :
    Along (step out d) (PaidTenure out d) (deployed d admin w) ts ↔
      Along (step out d) (ClockTenure out d) (deployed d admin w) ts := by
  have hstep : ∀ s t, PaidTenure out d s t ↔ ClockTenure out d s t := by
    intro s t
    constructor
    · intro hpaid s' hok
      exact ((step_effect hok).withinPaid_iff t.env.timestamp).mp (hpaid s' hok)
    · intro hclock s' hok
      exact ((step_effect hok).withinPaid_iff t.env.timestamp).mpr (hclock s' hok)
  constructor
  · exact Along.imp fun s t => (hstep s t).mp
  · exact Along.imp fun s t => (hstep s t).mpr

/-! ## A hundred years for the price of one -/

namespace FutureStart

open Cast

/-- At ledger time 1000 Alice pays for one year and passes a `now_unix` a hundred years ahead. -/
def buy : Tx Call :=
  ⟨⟨1000, [alice], none⟩, .registrar (.register (ascii "alice") alice 1 250000000 3153601000)⟩

/-- **Paid tenure fails on the code**: the name is hers for a hundred and one years. -/
theorem one_year_buys_a_century :
    ¬ Along (step Registry.nothingOutside contracts) (PaidTenure Registry.nothingOutside contracts)
      (deployed contracts alice ()) [buy] := by
  rintro ⟨hpaid, _⟩
  have hrecord : (exec (step Registry.nothingOutside contracts) (deployed contracts alice ())
      buy).registrar.registration aliceXlm
        = some ⟨ascii "alice.xlm", alice, 3153601000, 3185137000, 3187729000, 250000000, 3153601000⟩ := by
    decide +kernel
  rcases exec_cases (step Registry.nothingOutside contracts) (deployed contracts alice ()) buy with
    hok | ⟨_, hsame⟩
  · obtain ⟨⟨record, hr, hle⟩, _⟩ := hpaid _ hok aliceXlm (by decide)
    obtain rfl := Option.some.inj (hrecord.symm.trans hr)
    exact absurd hle (by decide)
  · rw [hsame] at hrecord
    cases hrecord

end FutureStart

end XlmNs.RegistrarRegistry
