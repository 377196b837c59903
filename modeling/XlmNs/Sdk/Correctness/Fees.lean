import XlmNs.Common.OffChain
import XlmNs.Registrar.Correctness.Accounting
import XlmNs.Registrar.Correctness.GraceBounds
import XlmNs.Sdk.Correctness.Submissions

/-!
# `Sdk.Correctness.Fees` — the client's prices and the registrar's

The client computes quotes itself, "in parity with the deployed contract". For registrations they are: `quote_parity`, and
`registration_price`, by which the client's fee is the least a registration goes through with. For renewals they are not:
`renewal_price` says that the client's fee, taken as stroops, is never enough, and taken as XLM is enough for the long
labels only.
-/

namespace XlmNs.Sdk

open Soroban

variable {ω : Type} {label : String} {durationYears years : UInt32} {now : UInt64} {contractId : String}

/-! ## Labels -/

/-- Nothing in a label is white space. -/
theorem isWhitespace_of_isLabelChar {ch : Char} (h : isLabelChar ch = true) : isWhitespace ch = false := by
  have hlt := isLabelChar_lt h
  have hall : ∀ n : Fin 128, isLabelChar (Char.ofNat n.val) = true → isWhitespace (Char.ofNat n.val) = false := by
    decide +kernel
  have hch := hall ⟨ch.toNat, hlt⟩
  rw [Char.ofNat_toNat] at hch
  exact hch h

/-- Of a valid label the client counts all its bytes. -/
theorem byteLength_label (h : validateLabelSoroban (utf8 label) = .ok ()) :
    byteLength (trim label) = (utf8 label).length := by
  have hlabel := validateLabelBytes_eq_ok.mp (validateLabelSoroban_eq_ok.mp h)
  have hchars : ∀ ch ∈ label.toList, isLabelChar ch = true := by
    rw [← labelChars, ← utf8_eq_encode]
    intro b hb
    exact isLabelByte_iff.mpr (hlabel.bytes b hb)
  rw [trim_of_forall (fun ch hch => isWhitespace_of_isLabelChar (hchars ch hch)), byteLength, String.ofList_toList,
    length_utf8]

/-! ## Registrations -/

/-- The total is the base fee, the other two being nothing. -/
theorem totalFee_eq (h : validateLabelSoroban (utf8 label) = .ok ()) :
    (buildQuote label durationYears now contractId).totalFee =
      saturatingMul (Registrar.priceForLabelLength (utf8 label).length) durationYears.toUInt64 := by
  show saturatingAdd (saturatingAdd (saturatingMul (priceForLabelLength (byteLength (trim label))) durationYears.toUInt64) 0)
    0 = _
  rw [saturatingAdd_zero, saturatingAdd_zero, byteLength_label h]
  rfl

theorem saturatingMul_comm (a b : UInt64) : saturatingMul a b = saturatingMul b a := by
  rw [← UInt64.toNat_inj, toNat_saturatingMul, toNat_saturatingMul, Nat.mul_comm]

/-- **Quotes agree**: of the same label, at the same time, fee and expiry are the contract's; and so is the end of the
    grace period as long as the registrar's is the default. -/
theorem quote_parity {s : Registrar.State} {q : Registrar.RegistrationQuote}
    (h : Registrar.quoteRegistration s (utf8 label) durationYears.toUInt64 now = .ok q) (contractId : String) :
    let quote := buildQuote label durationYears now contractId
    quote.totalFee = q.feeStroops ∧ quote.expiresAt = q.expiryUnix ∧
      (Registrar.getGracePeriodSeconds s = gracePeriodSeconds → quote.gracePeriodEndsAt = q.gracePeriodEndsAt) := by
  simp only [Registrar.quoteRegistration, bind_eq_ok, mapErr_eq_ok, pure_eq_ok] at h
  obtain ⟨_, hlabel, _, _, rfl⟩ := h
  have hexpiry : (buildQuote label durationYears now contractId).expiresAt = expiryFromNow now durationYears.toUInt64 :=
    congrArg (saturatingAdd now) (saturatingMul_comm _ _)
  refine ⟨totalFee_eq hlabel, hexpiry, fun hgrace => ?_⟩
  show saturatingAdd (buildQuote label durationYears now contractId).expiresAt gracePeriodSeconds
    = saturatingAdd (expiryFromNow now durationYears.toUInt64) (Registrar.getGracePeriodSeconds s)
  rw [hexpiry, hgrace]

/-- Two years of a five-letter name, 50 XLM. -/
theorem quote_parity_alice : (buildQuote "alice" 2 1000 "CREGISTRAR").totalFee = 500000000 :=
  have hquote : Registrar.quoteRegistration (.initialized ⟨ascii "CREGISTRY"⟩ ⟨ascii "GADMIN"⟩) (utf8 "alice")
      (2 : UInt32).toUInt64 1000 = .ok ⟨500000000, 63073000, 65665000, 1300, ⟨250000000, 2, 0⟩⟩ := by decide +kernel
  (quote_parity hquote "CREGISTRAR").1

/-- **The client's fee is the price**: a registration goes through iff it does with just that as its maximum, and the
    maximum it names is no less. When the client quoted does not matter. -/
theorem registration_price (out : Registrar.Outside ω) (self : Address) (env : Env) (s s' : Registrar.State) (w w' : ω)
    (label : String) (owner : Address) (durationYears : UInt32) (maxPrice nowUnix quotedAt : UInt64)
    (contractId : String) :
    Registrar.register out self env s w (utf8 label) owner durationYears.toUInt64 maxPrice nowUnix = .ok (s', w') ↔
      (buildQuote label durationYears quotedAt contractId).totalFee ≤ maxPrice ∧
      Registrar.register out self env s w (utf8 label) owner durationYears.toUInt64
        (buildQuote label durationYears quotedAt contractId).totalFee nowUnix = .ok (s', w') := by
  constructor
  · intro h
    obtain ⟨ha, hv, hq, hy, hr, hl, hf, hrest⟩ := Registrar.register_eq_ok.mp h
    have hfee : (buildQuote label durationYears quotedAt contractId).totalFee =
        (Registrar.buildQuote s (utf8 label) durationYears.toUInt64 nowUnix).feeStroops := totalFee_eq hv
    rw [hfee]
    exact ⟨hf, Registrar.register_eq_ok.mpr ⟨ha, hv, hq, hy, hr, hl, UInt64.le_refl _, hrest⟩⟩
  · rintro ⟨hle, h⟩
    obtain ⟨ha, hv, hq, hy, hr, hl, hf, hrest⟩ := Registrar.register_eq_ok.mp h
    exact Registrar.register_eq_ok.mpr ⟨ha, hv, hq, hy, hr, hl, UInt64.le_trans hf hle, hrest⟩

/-! ## Renewals -/

/-- Ten million stroops are one XLM. -/
def stroopsPerXlm : Nat := 10000000

theorem toNat_renewalFee (years : UInt32) : (renewalFee years).toNat = 10 * years.toNat + 1 := by
  have hyears := years.toNat_lt
  rw [renewalFee, toNat_saturatingAdd, toNat_saturatingMul, UInt32.toNat_toUInt64]
  show min (min (10 * years.toNat) u64Max + 1) u64Max = _
  simp only [u64Max, UInt64.size]
  omega

/-- What the registrar asks for a renewal, next to what the client says. -/
theorem renewal_due (hyears : validateRegistrationYearsSoroban years.toUInt64 = .ok ()) (length : Nat) :
    (renewalFee years).toNat < (saturatingMul (Registrar.priceForLabelLength length) years.toUInt64).toNat ∧
      ((saturatingMul (Registrar.priceForLabelLength length) years.toUInt64).toNat
        ≤ (renewalFee years).toNat * stroopsPerXlm ↔ 7 ≤ length) := by
  have hone := Registrar.one_le_years hyears
  rw [UInt32.toNat_toUInt64] at hone
  rw [Registrar.toNat_price_mul length hyears, UInt32.toNat_toUInt64, toNat_renewalFee]
  unfold Registrar.priceForLabelLength stroopsPerXlm
  split
  · show _ < 1000000000 * _ ∧ (1000000000 * _ ≤ _ ↔ _)
    omega
  · split
    · show _ < 250000000 * _ ∧ (250000000 * _ ≤ _ ↔ _)
      omega
    · show _ < 100000000 * _ ∧ (100000000 * _ ≤ _ ↔ _)
      omega

/-- The two calls that renew: before the expiry, and `late`, in the grace period. -/
def renewalCall (late : Bool) (name : Bytes) (caller : Address) (years payment nowUnix : UInt64) : Registrar.Call :=
  if late then .extendDuringGrace name caller years payment nowUnix else .renew name caller years payment nowUnix

/-- The registrar accepts a renewal with this payment. -/
def Renews (out : Registrar.Outside ω) (self : Address) (env : Env) (s : Registrar.State) (w : ω) (late : Bool)
    (name : Bytes) (caller : Address) (years payment nowUnix : UInt64) : Prop :=
  ∃ sw, Registrar.step out self (s, w) ⟨env, renewalCall late name caller years payment nowUnix⟩ = .ok sw

/-- The payment is compared with the price, and nothing else depends on it. -/
theorem renews_iff (out : Registrar.Outside ω) (self : Address) (env : Env) (s : Registrar.State) (w : ω) (late : Bool)
    (name : Bytes) (caller : Address) (years nowUnix : UInt64) :
    ∃ Allowed : Prop, ∀ payment, Renews out self env s w late name caller years payment nowUnix ↔
      Allowed ∧ validateRegistrationYearsSoroban years = .ok () ∧ ∃ label, extractLabelSoroban name = .ok label ∧
        saturatingMul (Registrar.priceForLabelLength label.length) years ≤ payment := by
  cases late with
  | false =>
      refine ⟨env.Authorises caller ∧ ∃ record, s.registration name = some record ∧ record.owner = caller ∧
        nowUnix ≤ record.gracePeriodEndsAt ∧ ∃ w', Registrar.callRegistry out self env s (.renew name caller
          (expiryFromNow (Registrar.baseTime record nowUnix) years)
          (Registrar.computeGracePeriodEndsAt s (expiryFromNow (Registrar.baseTime record nowUnix) years)) nowUnix) w
            = .ok w', fun payment => ?_⟩
      constructor
      · rintro ⟨⟨s', w'⟩, h⟩
        obtain ⟨ha, label, hlabel, hy, record, hr, ho, hopen, hpaid, _, hc⟩ := Registrar.renew_eq_ok.mp h
        exact ⟨⟨ha, record, hr, ho, hopen, w', hc⟩, hy, label, hlabel, hpaid⟩
      · rintro ⟨⟨ha, record, hr, ho, hopen, w', hc⟩, hy, label, hlabel, hpaid⟩
        exact ⟨_, Registrar.renew_eq_ok.mpr ⟨ha, label, hlabel, hy, record, hr, ho, hopen, hpaid, rfl, hc⟩⟩
  | true =>
      refine ⟨env.Authorises caller ∧ ∃ record, s.registration name = some record ∧ record.owner = caller ∧
        record.expiresAt < nowUnix ∧ nowUnix ≤ record.gracePeriodEndsAt ∧ ∃ w', Registrar.callRegistry out self env s
          (.renew name caller (expiryFromNow (Registrar.baseTime record nowUnix) years)
            (Registrar.computeGracePeriodEndsAt s (expiryFromNow (Registrar.baseTime record nowUnix) years)) nowUnix) w
            = .ok w', fun payment => ?_⟩
      constructor
      · rintro ⟨⟨s', w'⟩, h⟩
        obtain ⟨ha, label, hlabel, hy, record, hr, ho, hexp, hopen, hpaid, _, hc⟩ := Registrar.extendDuringGrace_eq_ok.mp h
        exact ⟨⟨ha, record, hr, ho, hexp, hopen, w', hc⟩, hy, label, hlabel, hpaid⟩
      · rintro ⟨⟨ha, record, hr, ho, hexp, hopen, w', hc⟩, hy, label, hlabel, hpaid⟩
        exact ⟨_, Registrar.extendDuringGrace_eq_ok.mpr
          ⟨ha, label, hlabel, hy, record, hr, ho, hexp, hopen, hpaid, rfl, hc⟩⟩

/-- The client's renewal fee, taken as XLM. -/
def renewalFeeInStroops (years : UInt32) : UInt64 := UInt64.ofNat ((renewalFee years).toNat * stroopsPerXlm)

theorem toNat_renewalFeeInStroops (years : UInt32) :
    (renewalFeeInStroops years).toNat = (renewalFee years).toNat * stroopsPerXlm := by
  have hyears := years.toNat_lt
  apply UInt64.toNat_ofNat_of_lt'
  rw [toNat_renewalFee]
  simp only [stroopsPerXlm, UInt64.size]
  omega

/-- **The client's renewal fee**, whatever the state of the registrar: taken as stroops it never pays for a renewal; taken
    as XLM it does iff some payment does and the label has seven bytes or more. -/
theorem renewal_price (out : Registrar.Outside ω) (self : Address) (env : Env) (s : Registrar.State) (w : ω) (late : Bool)
    (name : Bytes) (caller : Address) (years : UInt32) (nowUnix : UInt64) :
    ¬ Renews out self env s w late name caller years.toUInt64 (renewalFee years) nowUnix ∧
      (Renews out self env s w late name caller years.toUInt64 (renewalFeeInStroops years) nowUnix ↔
        (∃ payment, Renews out self env s w late name caller years.toUInt64 payment nowUnix) ∧
          ∃ label, extractLabelSoroban name = .ok label ∧ 7 ≤ label.length) := by
  obtain ⟨Allowed, hrenews⟩ := renews_iff out self env s w late name caller years.toUInt64 nowUnix
  simp only [hrenews]
  constructor
  · rintro ⟨_, hyears, label, _, hpaid⟩
    exact absurd (UInt64.le_iff_toNat_le.mp hpaid) (Nat.not_le.mpr (renewal_due hyears label.length).1)
  · constructor
    · rintro ⟨hallowed, hyears, label, hlabel, hpaid⟩
      rw [UInt64.le_iff_toNat_le, toNat_renewalFeeInStroops, (renewal_due hyears label.length).2] at hpaid
      exact ⟨⟨_, hallowed, hyears, label, hlabel, UInt64.le_refl _⟩, label, hlabel, hpaid⟩
    · rintro ⟨⟨_, hallowed, hyears, _⟩, label, hlabel, hlong⟩
      refine ⟨hallowed, hyears, label, hlabel, ?_⟩
      rw [UInt64.le_iff_toNat_le, toNat_renewalFeeInStroops, (renewal_due hyears label.length).2]
      exact hlong

end XlmNs.Sdk
