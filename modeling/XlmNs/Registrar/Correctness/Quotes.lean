import XlmNs.Registrar.Correctness.Accounting

/-!
# `Registrar.Correctness.Quotes` — the quotes say what the sales do

`quote_registration` and `quote_renewal` compute fee, expiry and grace period on their own, next to `register` and
`renew`. In every state the one is what the other does there: the record has the quoted bounds, and the quoted fee is
where the fee check turns (`FeeGate`).

## Contents
- when the two sales refuse a payment as too small.
- `register_as_quoted`, `renew_as_quoted`: the record a sale leaves.
- `quotes_match`.
-/

namespace XlmNs.Registrar

open Soroban

variable {ω : Type} {out : Outside ω} {self : Address} {env : Env} {s s' : State} {w w' : ω}
variable {name label : Bytes} {owner caller : Address} {years nowUnix maxPrice paymentStroops : UInt64}

/-! ## A payment that is too small -/

theorem callRegistry_ne_insufficientFee {call : RegistryCall} :
    callRegistry out self env s call w ≠ .error (.error .insufficientFee) := by
  intro h
  rcases bind_eq_error.mp h with h | ⟨_, _, h⟩
  · cases (okOr_eq_error.mp h).2
  · exact invoke_ne_error h

theorem checkRateLimit_ne_insufficientFee : checkRateLimit s owner nowUnix ≠ .error (.error .insufficientFee) := by
  unfold checkRateLimit
  split
  · exact pure_ne_error
  · exact require_ne_error (by decide)

/-- **`register` refuses a price as too small** after its checks up to the rate limit, and for no other reason than a
    price below the quote. -/
theorem register_insufficientFee_iff :
    register out self env s w label owner years maxPrice nowUnix = .error (.error .insufficientFee) ↔
      env.Authorises owner ∧ validateLabelSoroban label = .ok () ∧
      nowUnix ≤ saturatingAdd nowUnix quoteValiditySeconds ∧
      validateRegistrationYearsSoroban years = .ok () ∧ (s.reserved label).getD false = false ∧
      WithinLimit s owner nowUnix ∧ maxPrice < (buildQuote s label years nowUnix).feeStroops := by
  simp only [register, bind_eq_error, requireAuth_eq_ok, mapErr_eq_ok, mapErr_eq_error, require_eq_ok, require_eq_error,
    requireAuth_ne_error, checkRateLimit_eq_ok, checkRateLimit_ne_insufficientFee, callRegistry_ne_insufficientFee,
    pure_ne_error, reduceCtorEq, and_false, and_true, false_or, or_false, exists_false, exists_const, UInt64.not_le]
  constructor
  · rintro ⟨ha, ⟨⟩, hv, hq, ⟨⟩, hy, hr, hl, hf⟩
    exact ⟨ha, hv, hq, hy, hr, hl, hf⟩
  · rintro ⟨ha, hv, hq, hy, hr, hl, hf⟩
    exact ⟨ha, (), hv, hq, (), hy, hr, hl, hf⟩

/-- **`renew` refuses a payment as too small** after all its other checks, and for no other reason than a payment below
    the fee due. -/
theorem renew_insufficientFee_iff :
    renew out self env s w name caller years paymentStroops nowUnix = .error (.error .insufficientFee) ↔
      env.Authorises caller ∧ ∃ label, extractLabelSoroban name = .ok label ∧
      validateRegistrationYearsSoroban years = .ok () ∧ ∃ record, s.registration name = some record ∧
      record.owner = caller ∧ nowUnix ≤ record.gracePeriodEndsAt ∧
      paymentStroops < saturatingMul (priceForLabelLength label.length) years := by
  simp only [renew, canRenew, commitRenewal, bind_eq_error, bind_eq_ok, requireAuth_eq_ok, mapErr_eq_ok, mapErr_eq_error,
    okOr_eq_ok, okOr_eq_error, require_eq_ok, require_eq_error, requireAuth_ne_error, callRegistry_ne_insufficientFee,
    pure_eq_ok, pure_ne_error, reduceCtorEq, and_false, and_true, false_or, or_false, exists_false, exists_const,
    UInt64.not_le]
  constructor
  · rintro ⟨ha, label, hlabel, ⟨⟩, hy, record, hr, ho, _, ⟨hopen, _⟩, _, hshort⟩
    exact ⟨ha, label, hlabel, hy, record, hr, ho, hopen, hshort⟩
  · rintro ⟨ha, label, hlabel, hy, record, hr, ho, hopen, hshort⟩
    exact ⟨ha, label, hlabel, (), hy, record, hr, ho, true, ⟨hopen, rfl⟩, rfl, hshort⟩

/-! ## The fee check -/

/-- **The fee check of a call turns at `fee`**: it lets every payment from `fee` on pass and no smaller one. -/
structure FeeGate (attempt : UInt64 → Result (State × ω)) (fee : UInt64) : Prop where
  /-- enough is never refused as too little -/
  enough  : ∀ payment, fee ≤ payment → attempt payment ≠ .error (.error .insufficientFee)
  /-- less is never accepted -/
  short   : ∀ payment, payment < fee → ∀ sw, attempt payment ≠ .ok sw
  /-- where one payment is accepted, `fee` alone decides about every other -/
  decides : ∀ payment sw, attempt payment = .ok sw → ∀ other,
    (fee ≤ other → ∃ sw', attempt other = .ok sw') ∧
      (other < fee → attempt other = .error (.error .insufficientFee))

theorem quoteRegistration_eq_ok {quote : RegistrationQuote} :
    quoteRegistration s label years nowUnix = .ok quote ↔
      validateLabelSoroban label = .ok () ∧ validateRegistrationYearsSoroban years = .ok () ∧
        buildQuote s label years nowUnix = quote := by
  simp only [quoteRegistration, bind_eq_ok, mapErr_eq_ok, pure_eq_ok]
  constructor
  · rintro ⟨⟨⟩, hlabel, ⟨⟩, hyears, hquote⟩
    exact ⟨hlabel, hyears, hquote⟩
  · rintro ⟨hlabel, hyears, hquote⟩
    exact ⟨(), hlabel, (), hyears, hquote⟩

theorem register_feeGate (out : Outside ω) (self : Address) (env : Env) (w : ω) (owner : Address)
    {quote : RegistrationQuote} (hquote : quoteRegistration s label years nowUnix = .ok quote) :
    FeeGate (fun maxPrice => register out self env s w label owner years maxPrice nowUnix) quote.feeStroops := by
  obtain ⟨_, _, rfl⟩ := quoteRegistration_eq_ok.mp hquote
  constructor
  · intro payment henough h
    obtain ⟨_, _, _, _, _, _, hshort⟩ := register_insufficientFee_iff.mp h
    exact UInt64.not_le.mpr hshort henough
  · rintro payment hshort ⟨s', w'⟩ h
    obtain ⟨_, _, _, _, _, _, henough, _⟩ := register_eq_ok.mp h
    exact UInt64.not_le.mpr hshort henough
  · rintro payment ⟨s', w'⟩ h other
    obtain ⟨ha, hv, hq, hy, hr, hl, _, hrest⟩ := register_eq_ok.mp h
    constructor
    · intro henough
      exact ⟨(s', w'), register_eq_ok.mpr ⟨ha, hv, hq, hy, hr, hl, henough, hrest⟩⟩
    · intro hshort
      exact register_insufficientFee_iff.mpr ⟨ha, hv, hq, hy, hr, hl, hshort⟩

/-- What a renewal is quoted. -/
theorem quoteRenewal_eq_ok {quote : RenewalQuote} (h : quoteRenewal s name years nowUnix = .ok quote) :
    ∃ label, extractLabelSoroban name = .ok label ∧
      quote.feeStroops = saturatingMul (priceForLabelLength label.length) years ∧
      ∃ record, s.registration name = some record ∧
        quote.extendedExpiryUnix = expiryFromNow (baseTime record nowUnix) years ∧
        quote.gracePeriodEndsAt = computeGracePeriodEndsAt s quote.extendedExpiryUnix := by
  simp only [quoteRenewal, bind_eq_ok, mapErr_eq_ok, okOr_eq_ok, pure_eq_ok] at h
  obtain ⟨label, hlabel, _, _, record, hrecord, rfl⟩ := h
  exact ⟨label, hlabel, rfl, record, hrecord, rfl, rfl⟩

theorem renew_feeGate (out : Outside ω) (self : Address) (env : Env) (w : ω) (caller : Address)
    {quote : RenewalQuote} (hquote : quoteRenewal s name years nowUnix = .ok quote) :
    FeeGate (fun payment => renew out self env s w name caller years payment nowUnix) quote.feeStroops := by
  obtain ⟨label, hlabel, hfee, _⟩ := quoteRenewal_eq_ok hquote
  rw [hfee]
  constructor
  · intro payment henough h
    obtain ⟨_, label', hlabel', _, _, _, _, _, hshort⟩ := renew_insufficientFee_iff.mp h
    obtain rfl := Except.ok.inj (hlabel.symm.trans hlabel')
    exact UInt64.not_le.mpr hshort henough
  · rintro payment hshort ⟨s', w'⟩ h
    obtain ⟨_, label', hlabel', _, _, _, _, _, henough, _⟩ := renew_eq_ok.mp h
    obtain rfl := Except.ok.inj (hlabel.symm.trans hlabel')
    exact UInt64.not_le.mpr hshort henough
  · rintro payment ⟨s', w'⟩ h other
    obtain ⟨ha, label', hlabel', hy, record, hr, ho, hopen, _, _, hc⟩ := renew_eq_ok.mp h
    obtain rfl := Except.ok.inj (hlabel.symm.trans hlabel')
    constructor
    · intro henough
      exact ⟨(_, w'), renew_eq_ok.mpr ⟨ha, label, hlabel, hy, record, hr, ho, hopen, henough, rfl, hc⟩⟩
    · intro hshort
      exact renew_insufficientFee_iff.mpr ⟨ha, label, hlabel, hy, record, hr, ho, hopen, hshort⟩

/-! ## The record a sale leaves -/

theorem register_as_quoted (h : register out self env s w label owner years maxPrice nowUnix = .ok (s', w')) :
    ∃ name quote record, buildXlmName label = .ok name ∧ quoteRegistration s label years nowUnix = .ok quote ∧
      s'.registration name = some record ∧ record.expiresAt = quote.expiryUnix ∧
      record.gracePeriodEndsAt = quote.gracePeriodEndsAt ∧ record.feePaid = quote.feeStroops := by
  obtain ⟨_, _, _, _, _, _, _, name, hname, _, rfl, _⟩ := register_eq_ok.mp h
  exact ⟨name, _, _, hname, quoteRegistration_of_ok h, Store.set_self _ _ _, rfl, rfl, rfl⟩

theorem renew_as_quoted (h : renew out self env s w name caller years paymentStroops nowUnix = .ok (s', w')) :
    ∃ quote record, quoteRenewal s name years nowUnix = .ok quote ∧ s'.registration name = some record ∧
      record.expiresAt = quote.extendedExpiryUnix ∧ record.gracePeriodEndsAt = quote.gracePeriodEndsAt := by
  obtain ⟨quote, hquote, _⟩ := renew_quoted h
  obtain ⟨_, _, _, record, hrecord, hexpiry, hgrace⟩ := quoteRenewal_eq_ok hquote
  obtain ⟨record', hrenewal⟩ := renew_ok h
  obtain rfl := Option.some.inj (hrecord.symm.trans hrenewal.record_eq)
  rw [hrenewal.storage]
  refine ⟨quote, _, hquote, Store.set_self _ _ _, hexpiry.symm, ?_⟩
  rw [hgrace, hexpiry]
  rfl

/-- **The quotes match the outcomes**, in every state, at every time and whatever the registry does: a registration
    leaves the record that `quote_registration` promised in the state before it, a renewal the bounds that
    `quote_renewal` promised, and the fee checks turn at the quoted fees. -/
theorem quotes_match (out : Outside ω) (self : Address) (env : Env) (s : State) (w : ω) (years nowUnix : UInt64) :
    (∀ label owner maxPrice s' w', register out self env s w label owner years maxPrice nowUnix = .ok (s', w') →
      ∃ name quote record, buildXlmName label = .ok name ∧ quoteRegistration s label years nowUnix = .ok quote ∧
        s'.registration name = some record ∧ record.expiresAt = quote.expiryUnix ∧
        record.gracePeriodEndsAt = quote.gracePeriodEndsAt ∧ record.feePaid = quote.feeStroops) ∧
    (∀ label owner quote, quoteRegistration s label years nowUnix = .ok quote →
      FeeGate (fun maxPrice => register out self env s w label owner years maxPrice nowUnix) quote.feeStroops) ∧
    (∀ name caller payment s' w', renew out self env s w name caller years payment nowUnix = .ok (s', w') →
      ∃ quote record, quoteRenewal s name years nowUnix = .ok quote ∧ s'.registration name = some record ∧
        record.expiresAt = quote.extendedExpiryUnix ∧ record.gracePeriodEndsAt = quote.gracePeriodEndsAt) ∧
    ∀ name caller quote, quoteRenewal s name years nowUnix = .ok quote →
      FeeGate (fun payment => renew out self env s w name caller years payment nowUnix) quote.feeStroops := by
  refine ⟨?_, ?_, ?_, ?_⟩
  · intro label owner maxPrice s' w' h
    exact register_as_quoted h
  · intro label owner quote hquote
    exact register_feeGate out self env w owner hquote
  · intro name caller payment s' w' h
    exact renew_as_quoted h
  · intro name caller quote hquote
    exact renew_feeGate out self env w caller hquote

namespace TwoYears

open Cast

/-- A registrar just after `initialize`. -/
def opening : State := .initialized registry admin

/-- Alice buys two years for 50 XLM; one stroop less is refused. -/
theorem alice_quoted :
    ∃ s' record, register accepting registrar signed opening () (ascii "alice") alice 2 600000000 1000 = .ok (s', ()) ∧
      s'.registration aliceXlm = some record ∧ record.feePaid = 500000000 ∧
      register accepting registrar signed opening () (ascii "alice") alice 2 499999999 1000
        = .error (.error .insufficientFee) := by
  obtain ⟨s', hsold⟩ : ∃ s',
      register accepting registrar signed opening () (ascii "alice") alice 2 600000000 1000 = .ok (s', ()) := ⟨_, rfl⟩
  obtain ⟨hregister, hgate, _⟩ := quotes_match accepting registrar signed opening () 2 1000
  obtain ⟨name, quote, record, hname, hquote, hrecord, _, _, hfee⟩ := hregister _ _ _ _ _ hsold
  have hcom : buildXlmName (ascii "alice") = .ok aliceXlm := by decide +kernel
  obtain rfl := Except.ok.inj (hcom.symm.trans hname)
  have hprice : quote.feeStroops = 500000000 := by
    obtain ⟨_, _, rfl⟩ := quoteRegistration_eq_ok.mp hquote
    decide
  refine ⟨s', record, hsold, hrecord, hfee.trans hprice, ?_⟩
  apply ((hgate _ alice quote hquote).decides _ _ hsold _).2
  rw [hprice]
  decide

end TwoYears

end XlmNs.Registrar
