import XlmNs.Registrar.Steps
import XlmNs.Soroban.Machine
import XlmNs.Soroban.Token

/-!
# `Registrar.Correctness.Accounting` — treasury, counters and fees add up

Three entrypoints take money: `register` the quoted fee, `renew` and `extend_during_grace` whatever the caller pays
beyond it. Treasury and counters are saturating counters of the committed sales (`run_saturating`), and the fees
recorded with the registrations are covered by what was charged (`Covered`): a renewal adds to the record no more than
was paid, and a new registration replaces the old fee by the new one.

## Contents
- `charge`, and `quotedFee`: no sale is charged less than the quote of that moment.
- `step_treasury`, `step_registrations`, `step_renewals`: what one step adds.
- `accounting`: whole runs.
-/

namespace XlmNs.Registrar

open Soroban

variable {ω : Type} {out : Outside ω} {self : Address} {env : Env} {s s' : State} {w w' : ω}
variable {name label : Bytes} {owner caller : Address} {years nowUnix maxPrice paymentStroops : UInt64}
variable {t : Tx Call}

/-! ## Charges -/

/-- What a successful call is charged. -/
def Call.charge : Call → Nat
  | .register label _ years _ _              => (priceForLabelLength label.length).toNat * years.toNat
  | .renew _ _ _ paymentStroops _            => paymentStroops.toNat
  | .extendDuringGrace _ _ _ paymentStroops _ => paymentStroops.toNat
  | _                                        => 0

/-- What it adds to the treasury. -/
def Call.payment : Call → UInt64
  | .register label _ years _ _              => saturatingMul (priceForLabelLength label.length) years
  | .renew _ _ _ paymentStroops _            => paymentStroops
  | .extendDuringGrace _ _ _ paymentStroops _ => paymentStroops
  | _                                        => 0

/-- The call sells a registration. -/
def Call.isRegistration : Call → Bool
  | .register .. => true
  | _            => false

/-- The call sells a renewal, in the grace period or before. -/
def Call.isRenewal : Call → Bool
  | .renew .. | .extendDuringGrace .. => true
  | _                                 => false

/-- The fee a quote for the same call names, in the storage before it. -/
def quotedFee (s : State) : Call → Option UInt64
  | .register label _ years _ nowUnix =>
      (quoteRegistration s label years nowUnix).toOption.map RegistrationQuote.feeStroops
  | .renew name _ years _ nowUnix =>
      (quoteRenewal s name years nowUnix).toOption.map RenewalQuote.feeStroops
  | .extendDuringGrace name _ years _ nowUnix =>
      (quoteRenewal s name years nowUnix).toOption.map RenewalQuote.feeStroops
  | _ => none

/-- A price never overflows: it is at most 100 XLM a year, for at most ten years. -/
theorem toNat_price_mul (length : Nat) (hyears : validateRegistrationYearsSoroban years = .ok ()) :
    (saturatingMul (priceForLabelLength length) years).toNat
      = (priceForLabelLength length).toNat * years.toNat := by
  have hprice : (priceForLabelLength length).toNat ≤ 1000000000 := by
    unfold priceForLabelLength
    split
    · decide
    · split <;> decide
  have hten : years.toNat ≤ 10 := by
    unfold validateRegistrationYearsSoroban at hyears
    split at hyears
    · rename_i hrange
      exact UInt64.le_iff_toNat_le.mp hrange.2
    · cases hyears
  have hmul : (priceForLabelLength length).toNat * years.toNat ≤ 1000000000 * 10 := Nat.mul_le_mul hprice hten
  rw [toNat_saturatingMul]
  exact min_eq_left (hmul.trans (by decide))

theorem quoteRegistration_of_ok
    (h : register out self env s w label owner years maxPrice nowUnix = .ok (s', w')) :
    quoteRegistration s label years nowUnix = .ok (buildQuote s label years nowUnix) := by
  obtain ⟨_, hlabel, _, hyears, _⟩ := register_eq_ok.mp h
  simp only [quoteRegistration, bind_eq_ok, mapErr_eq_ok, pure_eq_ok]
  exact ⟨(), hlabel, (), hyears, trivial⟩

/-- A renewal that passed its checks pays at least the quote. -/
theorem quoteRenewal_of_checks {record : RegistrationRecord} (hlabel : extractLabelSoroban name = .ok label)
    (hyears : validateRegistrationYearsSoroban years = .ok ()) (hrecord : s.registration name = some record)
    (hpaid : saturatingMul (priceForLabelLength label.length) years ≤ paymentStroops) :
    ∃ quote, quoteRenewal s name years nowUnix = .ok quote ∧ quote.feeStroops ≤ paymentStroops := by
  simp only [quoteRenewal, bind_eq_ok, mapErr_eq_ok, okOr_eq_ok]
  exact ⟨_, ⟨label, hlabel, (), hyears, record, hrecord, rfl⟩, hpaid⟩

theorem renew_quoted (h : renew out self env s w name caller years paymentStroops nowUnix = .ok (s', w')) :
    ∃ quote, quoteRenewal s name years nowUnix = .ok quote ∧ quote.feeStroops ≤ paymentStroops := by
  obtain ⟨_, label, hlabel, hyears, record, hrecord, _, _, hpaid, _⟩ := renew_eq_ok.mp h
  exact quoteRenewal_of_checks hlabel hyears hrecord hpaid

theorem extendDuringGrace_quoted
    (h : extendDuringGrace out self env s w name caller years paymentStroops nowUnix = .ok (s', w')) :
    ∃ quote, quoteRenewal s name years nowUnix = .ok quote ∧ quote.feeStroops ≤ paymentStroops := by
  obtain ⟨_, label, hlabel, hyears, record, hrecord, _, _, _, hpaid, _⟩ := extendDuringGrace_eq_ok.mp h
  exact quoteRenewal_of_checks hlabel hyears hrecord hpaid

/-- **A sale is charged at least its quote**, if it commits. -/
def ChargedAsQuoted (out : Outside ω) (self : Address) (sw : State × ω) (t : Tx Call) : Prop :=
  ∀ sw', step out self sw t = .ok sw' → t.call.isSale = true →
    ∃ fee, quotedFee sw.1 t.call = some fee ∧ fee.toNat ≤ t.call.charge

theorem chargedAsQuoted (out : Outside ω) (self : Address) (sw : State × ω) (t : Tx Call) :
    ChargedAsQuoted out self sw t := by
  rintro ⟨s', w'⟩ h hsale
  obtain ⟨s, w⟩ := sw
  obtain ⟨env, c⟩ := t
  cases c with
  | register label owner years maxPrice nowUnix =>
      refine ⟨(buildQuote s label years nowUnix).feeStroops, ?_, ?_⟩
      · rw [quotedFee, quoteRegistration_of_ok h]
        rfl
      · obtain ⟨_, _, _, hyears, _⟩ := register_eq_ok.mp h
        exact (toNat_price_mul label.length hyears).le
  | renew name caller years paymentStroops nowUnix =>
      obtain ⟨quote, hquote, hpaid⟩ := renew_quoted h
      refine ⟨quote.feeStroops, ?_, UInt64.le_iff_toNat_le.mp hpaid⟩
      rw [quotedFee, hquote]
      rfl
  | extendDuringGrace name caller years paymentStroops nowUnix =>
      obtain ⟨quote, hquote, hpaid⟩ := extendDuringGrace_quoted h
      refine ⟨quote.feeStroops, ?_, UInt64.le_iff_toNat_le.mp hpaid⟩
      rw [quotedFee, hquote]
      rfl
  | _ => cases hsale

/-! ## One step -/

/-- What a committed call makes of the metrics. -/
def Call.metrics (m : RegistrarMetrics) (c : Call) : RegistrarMetrics where
  treasuryBalance    := saturatingAdd m.treasuryBalance c.payment
  totalRegistrations := if c.isRegistration then saturatingAdd m.totalRegistrations 1 else m.totalRegistrations
  totalRenewals      := if c.isRenewal then saturatingAdd m.totalRenewals 1 else m.totalRenewals

/-- **Every committed call does to the metrics what `Call.metrics` says.** -/
theorem step_metrics (h : step out self (s, w) t = .ok (s', w')) : feeMetrics s' = t.call.metrics (feeMetrics s) := by
  cases hsale : t.call.isSale with
  | false =>
      rw [(step_administers h hsale).metrics]
      obtain ⟨env, c⟩ := t
      have hquiet : c.payment = 0 ∧ c.isRegistration = false ∧ c.isRenewal = false := by
        cases c with
        | register | renew | extendDuringGrace => cases hsale
        | _ => exact ⟨rfl, rfl, rfl⟩
      obtain ⟨hpayment, hregistration, hrenewal⟩ := hquiet
      simp [Call.metrics, hpayment, hregistration, hrenewal, saturatingAdd_zero]
  | true =>
      obtain ⟨env, c⟩ := t
      cases c with
      | register label owner years maxPrice nowUnix =>
          obtain ⟨_, _, _, _, _, _, _, name, _, _, rfl, _⟩ := register_eq_ok.mp h
          rfl
      | renew name caller years paymentStroops nowUnix =>
          obtain ⟨record, hrenewal⟩ := renew_ok h
          rw [hrenewal.storage]
          rfl
      | extendDuringGrace name caller years paymentStroops nowUnix =>
          obtain ⟨record, hrenewal⟩ := extendDuringGrace_ok h
          rw [hrenewal.storage]
          rfl
      | _ => cases hsale

/-- A committed call adds to the treasury exactly what it is charged. -/
theorem toNat_payment (h : step out self (s, w) t = .ok (s', w')) : t.call.payment.toNat = t.call.charge := by
  obtain ⟨env, c⟩ := t
  cases c with
  | register label owner years maxPrice nowUnix =>
      obtain ⟨_, _, _, hyears, _⟩ := register_eq_ok.mp h
      exact toNat_price_mul label.length hyears
  | _ => rfl

theorem step_treasury {sw sw' : State × ω} (h : step out self sw t = .ok sw') :
    (treasuryBalance sw'.1).toNat = min ((treasuryBalance sw.1).toNat + t.call.charge) u64Max := by
  show (feeMetrics sw'.1).treasuryBalance.toNat = _
  rw [step_metrics h, ← toNat_payment h]
  exact toNat_saturatingAdd _ _

/-- One more, if the call is of the kind counted. -/
theorem toNat_counted (count : UInt64) (counted : Bool) :
    (if counted then saturatingAdd count 1 else count).toNat = min (count.toNat + counted.toNat) u64Max := by
  cases counted with
  | true => exact toNat_saturatingAdd count 1
  | false =>
      have := toNat_le_u64Max count
      show count.toNat = min (count.toNat + 0) u64Max
      omega

theorem step_registrations {sw sw' : State × ω} (h : step out self sw t = .ok sw') :
    (feeMetrics sw'.1).totalRegistrations.toNat
      = min ((feeMetrics sw.1).totalRegistrations.toNat + t.call.isRegistration.toNat) u64Max := by
  rw [step_metrics h]
  exact toNat_counted _ _

theorem step_renewals {sw sw' : State × ω} (h : step out self sw t = .ok sw') :
    (feeMetrics sw'.1).totalRenewals.toNat
      = min ((feeMetrics sw.1).totalRenewals.toNat + t.call.isRenewal.toNat) u64Max := by
  rw [step_metrics h]
  exact toNat_counted _ _

/-! ## Fees on record -/

/-- The fee recorded with the registration of a name. -/
def feeOnRecord (s : State) (name : Bytes) : Nat := ((s.registration name).map (·.feePaid.toNat)).getD 0

/-- One registration is written, with a fee that grew by no more than `amount`. -/
theorem covered_registered {funds amount : Nat} {record : RegistrationRecord} (h : Covered (feeOnRecord s) funds)
    (hset : s'.registration = s.registration.set name record)
    (hfee : record.feePaid.toNat ≤ feeOnRecord s name + amount) : Covered (feeOnRecord s') (funds + amount) := by
  have hother : ∀ n, n ≠ name → feeOnRecord s' n = feeOnRecord s n := by
    intro n hn
    unfold feeOnRecord
    rw [hset, Store.set_ne _ _ hn]
  have hgrow : feeOnRecord s' name ≤ feeOnRecord s name + amount := by
    show ((s'.registration name).map (·.feePaid.toNat)).getD 0 ≤ _
    rw [hset, Store.set_self]
    exact hfee
  exact h.take_on hother hgrow

/-- **What a call adds to the fees on record, it is charged.** -/
theorem covered_step {sw sw' : State × ω} {funds : Nat} (hs : Covered (feeOnRecord sw.1) funds)
    (h : step out self sw t = .ok sw') : Covered (feeOnRecord sw'.1) (funds + t.call.charge) := by
  obtain ⟨env, c⟩ := t
  obtain ⟨s, w⟩ := sw
  obtain ⟨s', w'⟩ := sw'
  have hchange : Change out self env s w s' w' c := step_change h
  rw [← toNat_payment h]
  show Covered (feeOnRecord s') (funds + c.payment.toNat)
  -- either nothing is recorded, or one fee grows by no more than the payment
  cases hchange with
  | quiet hrecord =>
      refine hs.congr ?_ (Nat.le_add_right _ _)
      intro n
      unfold feeOnRecord
      rw [hrecord]
  | register _ _ _ _ _ hstorage _ =>
      -- the new fee replaces the old one
      refine covered_registered hs (congrArg State.registration hstorage) ?_
      exact Nat.le_add_left _ _
  | @renewal _ name caller years payment nowUnix record hrenewal hcall =>
      have hpayment : c.payment = payment := by
        rcases hcall with rfl | rfl <;> rfl
      rw [hpayment]
      refine covered_registered hs (congrArg State.registration hrenewal.storage) ?_
      show (saturatingAdd record.feePaid payment).toNat ≤ _
      rw [toNat_saturatingAdd, feeOnRecord, hrenewal.record_eq]
      exact Nat.min_le_left _ _

/-- **Whole runs.** -/
theorem covered_run (out : Outside ω) (self : Address) (ts : List (Tx Call)) {sw : State × ω} {funds : Nat}
    (hs : Covered (feeOnRecord sw.1) funds) :
    Covered (feeOnRecord (run (step out self) sw ts).1)
      (funds + ((commits (step out self) sw ts).map (·.call.charge)).sum) := by
  -- on the run, the funds growing by each committed charge
  induction ts generalizing sw funds with
  | nil => exact hs
  | cons t ts ih =>
      cases h : step out self sw t with
      | ok sw' =>
          rw [run_cons, exec_ok h, commits_cons_ok ts h, List.map_cons, List.sum_cons, ← Nat.add_assoc]
          exact ih (covered_step hs h)
      | error e =>
          -- a call that fails is not charged
          rw [run_cons, exec_error h, commits_cons_error ts h]
          exact ih hs

/-- The names with a registration are finitely many. -/
def Listable (s : State) : Prop := ∃ names : Finset Bytes, ∀ n, n ∈ names ↔ ∃ record, s.registration n = some record

theorem listable_set {record : RegistrationRecord} (hs : Listable s)
    (hset : s'.registration = s.registration.set name record) : Listable s' := by
  obtain ⟨names, hnames⟩ := hs
  refine ⟨insert name names, ?_⟩
  intro n
  rw [Finset.mem_insert, hnames, hset]
  by_cases hn : n = name
  · subst hn
    simp
  · simp [hn, Store.set_ne _ _ hn]

theorem preserves_listable (out : Outside ω) (self : Address) :
    Preserves (step out self) (fun sw => Listable sw.1) := by
  rintro ⟨s, w⟩ ⟨env, c⟩ ⟨s', w'⟩ hs h
  have hchange : Change out self env s w s' w' c := step_change h
  cases hchange with
  | quiet hrecord =>
      obtain ⟨names, hnames⟩ := hs
      refine ⟨names, ?_⟩
      intro n
      rw [hnames, hrecord]
  | register _ _ _ _ _ hstorage _ => exact listable_set hs (congrArg State.registration hstorage)
  | renewal hrenewal _ => exact listable_set hs (congrArg State.registration hrenewal.storage)

/-! ## Whole runs -/

/-- The sum of what the committed calls of a run were charged. -/
def totalCharged (out : Outside ω) (self : Address) (w : ω) (ts : List (Tx Call)) : Nat :=
  ((commits (step out self) (State.empty, w) ts).map (·.call.charge)).sum

/-- How many committed calls of a run are of a kind. -/
def totalOf (out : Outside ω) (self : Address) (w : ω) (ts : List (Tx Call)) (kind : Call → Bool) : Nat :=
  ((commits (step out self) (State.empty, w) ts).map (fun t => (kind t.call).toNat)).sum

/-- **The registrar's accounts add up.** After any run from a fresh deployment: treasury, registrations and renewals
    are the totals of the committed calls, capped at `u64::MAX`; every sale on the way is charged at least its quote;
    and unless the total charged exceeds `u64::MAX`, the treasury holds at least the fees recorded with all current
    registrations together. -/
theorem accounting (out : Outside ω) (self : Address) (w : ω) (ts : List (Tx Call)) :
    let s := (run (step out self) (State.empty, w) ts).1
    (treasuryBalance s).toNat = min (totalCharged out self w ts) u64Max ∧
    (feeMetrics s).totalRegistrations.toNat = min (totalOf out self w ts Call.isRegistration) u64Max ∧
    (feeMetrics s).totalRenewals.toNat = min (totalOf out self w ts Call.isRenewal) u64Max ∧
    Along (step out self) (ChargedAsQuoted out self) (State.empty, w) ts ∧
    (totalCharged out self w ts ≤ u64Max →
      ∃ names : Finset Bytes, (∀ n, n ∈ names ↔ ∃ record, s.registration n = some record) ∧
        ∑ n ∈ names, feeOnRecord s n ≤ (treasuryBalance s).toNat) := by
  intro s
  have hcharged : ∀ sw t sw', step out self sw t = .ok sw' → (treasuryBalance sw'.1).toNat
      = min ((treasuryBalance sw.1).toNat + t.call.charge) u64Max := fun _ _ _ => step_treasury
  have htreasury : (treasuryBalance s).toNat = min (0 + totalCharged out self w ts) u64Max :=
    run_saturating (fun sw => toNat_le_u64Max (treasuryBalance sw.1)) hcharged (State.empty, w) ts
  have hregistered : ∀ sw t sw', step out self sw t = .ok sw' → (feeMetrics sw'.1).totalRegistrations.toNat
      = min ((feeMetrics sw.1).totalRegistrations.toNat + t.call.isRegistration.toNat) u64Max :=
    fun _ _ _ => step_registrations
  have hregistrations : (feeMetrics s).totalRegistrations.toNat
      = min (0 + totalOf out self w ts Call.isRegistration) u64Max :=
    run_saturating (fun sw => toNat_le_u64Max (feeMetrics sw.1).totalRegistrations) hregistered (State.empty, w) ts
  have hrenewed : ∀ sw t sw', step out self sw t = .ok sw' → (feeMetrics sw'.1).totalRenewals.toNat
      = min ((feeMetrics sw.1).totalRenewals.toNat + t.call.isRenewal.toNat) u64Max := fun _ _ _ => step_renewals
  have hrenewals : (feeMetrics s).totalRenewals.toNat
      = min (0 + totalOf out self w ts Call.isRenewal) u64Max :=
    run_saturating (fun sw => toNat_le_u64Max (feeMetrics sw.1).totalRenewals) hrenewed (State.empty, w) ts
  rw [Nat.zero_add] at htreasury hregistrations hrenewals
  refine ⟨htreasury, hregistrations, hrenewals, along_of_forall (chargedAsQuoted out self) ts _, ?_⟩
  intro hfits
  obtain ⟨names, hnames⟩ : Listable s :=
    (preserves_listable out self).run ts ⟨∅, fun n => by simp [State.empty]⟩
  have hcovered : Covered (feeOnRecord s) (0 + totalCharged out self w ts) :=
    covered_run out self ts (Covered.nothing (fun _ => rfl) 0)
  refine ⟨names, hnames, ?_⟩
  rw [htreasury, min_eq_left hfits, ← Nat.zero_add (totalCharged out self w ts)]
  exact hcovered names

end XlmNs.Registrar
