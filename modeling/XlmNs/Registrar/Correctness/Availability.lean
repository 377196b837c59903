import XlmNs.Registrar.Correctness.GraceBounds

/-!
# `Registrar.Correctness.Availability` — what is offered and what can be bought

`is_available`, `registration_status` and the checks of `register` each combine the validity of a label, the reserved
list, the record of the name and its grace bound. `Free` is the part they share. `is_available` is `Free` alone;
`register` also asks the reserved list and needs a registry, and `registration_status` asks the reserved list first. So
the three agree on a label exactly when a free label is not reserved (and the registrar initialised).
-/

namespace XlmNs.Registrar

open Soroban

variable {ω : Type} {out : Outside ω} {self : Address} {env : Env} {s : State} {w : ω}
variable {label : Bytes} {owner : Address} {years nowUnix maxPrice : UInt64}

/-- The label is valid, and its name has no record or one that is past its grace period. -/
def Free (s : State) (label : Bytes) (nowUnix : UInt64) : Prop :=
  ∃ name, buildXlmName label = .ok name ∧ ∀ existing ∈ s.registration name, existing.gracePeriodEndsAt < nowUnix

/-- The registrar sells the label at all: it is not reserved, and there is a registry to sell through. -/
def Sellable (s : State) (label : Bytes) : Prop :=
  (s.reserved label).getD false = false ∧ s.registry ≠ none

theorem buildXlmName_isOk_iff : (∃ name, buildXlmName label = .ok name) ↔ validateLabelSoroban label = .ok () := by
  simp only [buildXlmName_eq_ok, exists_and_left, exists_eq, and_true]
  exact validateLabelSoroban_eq_ok.symm

/-! ## The two views -/

theorem isAvailable_iff : isAvailable s label nowUnix = true ↔ Free s label nowUnix := by
  unfold isAvailable Free
  cases buildXlmName label with
  | error e => simp
  | ok name =>
      simp only [Except.ok.injEq, exists_eq_left']
      cases s.registration name <;> simp

/-- `Claimable`, or `Unavailable` because the name of a valid label has no record. -/
def OpenByStatus (s : State) (label : Bytes) (nowUnix : UInt64) : Prop :=
  validateLabelSoroban label = .ok () ∧
    (registrationStatus s label nowUnix = .claimable ∨
      registrationStatus s label nowUnix = .unavailable ∧
        ∀ name, buildXlmName label = .ok name → s.registration name = none)

/-- A free label that is not reserved is open by its status, and no other one is. -/
theorem openByStatus_iff (hs : GraceBounded s) :
    OpenByStatus s label nowUnix ↔ Free s label nowUnix ∧ (s.reserved label).getD false = false := by
  unfold OpenByStatus registrationStatus Free
  rw [← buildXlmName_isOk_iff]
  cases hreserved : (s.reserved label).getD false with
  | true => simp
  | false =>
      cases hname : buildXlmName label with
      | error e => simp
      | ok name =>
          cases hrecord : s.registration name with
          | none => simp [hrecord]
          | some record =>
              -- past the grace period is past the expiry, too
              have hordered := (hs.record name record hrecord).ordered
              by_cases hgrace : nowUnix ≤ record.gracePeriodEndsAt
              · have hopen : ¬ record.gracePeriodEndsAt < nowUnix := UInt64.not_lt.mpr hgrace
                by_cases hexpiry : nowUnix ≤ record.expiresAt
                · simp [hrecord, hexpiry, hopen]
                · simp [hrecord, hexpiry, hgrace, hopen]
              · have hexpiry : ¬ nowUnix ≤ record.expiresAt :=
                  fun h => hgrace (UInt64.le_trans h hordered)
                simp [hrecord, hexpiry, hgrace, UInt64.not_le.mp hgrace]

/-! ## The checks of `register` -/

/-- A buyer who does his part: he signs, is under his rate limit, asks for 1 to 10 years and pays the fee. -/
structure Eligible (s : State) (env : Env) (label : Bytes) (owner : Address) (years maxPrice nowUnix : UInt64) :
    Prop where
  signed : env.Authorises owner
  limit  : WithinLimit s owner nowUnix
  term   : validateRegistrationYearsSoroban years = .ok ()
  price  : (buildQuote s label years nowUnix).feeStroops ≤ maxPrice

theorem checkRateLimit_ne_trap : checkRateLimit s owner nowUnix ≠ .error .trap := by
  unfold checkRateLimit
  split
  · exact pure_ne_error
  · exact require_ne_trap

/-- **What the registrar itself refuses**: of an eligible buyer, every label that is not free and sellable. What is
    left is the registry's answer. -/
theorem register_not_refused_iff (h : Eligible s env label owner years maxPrice nowUnix) :
    (∀ e, register out self env s w label owner years maxPrice nowUnix ≠ .error (.error e)) ↔
      Free s label nowUnix ∧ Sellable s label := by
  constructor
  · intro hopen
    simp only [register, requireAuth_ok h.signed, ok_bind_outcome] at hopen
    obtain ⟨_, _, hopen⟩ := bind_not_refused mapErr_ne_trap hopen
    obtain ⟨_, _, hopen⟩ := bind_not_refused require_ne_trap hopen
    obtain ⟨_, _, hopen⟩ := bind_not_refused mapErr_ne_trap hopen
    obtain ⟨_, hreserved, hopen⟩ := bind_not_refused require_ne_trap hopen
    obtain ⟨_, _, hopen⟩ := bind_not_refused checkRateLimit_ne_trap hopen
    obtain ⟨_, _, hopen⟩ := bind_not_refused require_ne_trap hopen
    obtain ⟨_, _, hopen⟩ := bind_not_refused require_ne_trap hopen
    obtain ⟨name, hname, hopen⟩ := bind_not_refused mapErr_ne_trap hopen
    obtain ⟨_, hfree, hopen⟩ := bind_not_refused require_ne_trap hopen
    refine ⟨⟨name, mapErr_eq_ok.mp hname, require_eq_ok.mp hfree⟩, require_eq_ok.mp hreserved, ?_⟩
    intro hnone
    apply hopen .notInitialized
    refine bind_eq_error.mpr (Or.inl ?_)
    exact bind_eq_error.mpr (Or.inl (okOr_eq_error.mpr ⟨hnone, rfl⟩))
  · rintro ⟨⟨name, hname, hfree⟩, hreserved, hregistry⟩ e
    have hlabel : validateLabelSoroban label = .ok () := buildXlmName_isOk_iff.mp ⟨name, hname⟩
    have hquote : nowUnix ≤ saturatingAdd nowUnix quoteValiditySeconds := le_saturatingAdd _ _
    have hlimit : checkRateLimit s owner nowUnix = .ok () := checkRateLimit_eq_ok.mpr h.limit
    have hvalid : nowUnix ≤ (buildQuote s label years nowUnix).validUntil := hquote
    simp only [register, requireAuth_ok h.signed, mapErr_eq_ok.mpr hlabel, require_ok hquote, mapErr_eq_ok.mpr h.term,
      require_ok hreserved, hlimit, require_ok h.price, require_ok hvalid, mapErr_eq_ok.mpr hname, require_ok hfree,
      ok_bind_outcome]
    refine bind_ne_error ?_ fun _ => pure_ne_error
    refine bind_ne_error ?_ fun _ => invoke_ne_error
    intro hfail
    exact hregistry (okOr_eq_error.mp hfail).1

/-! ## Agreement -/

/-- **The views of a label agree, for one buyer**: it is said to be available exactly when the registrar itself does not
    refuse to sell it to him, and exactly when its status is open. -/
structure ViewsAgree (out : Outside ω) (addr : Address) (env : Env) (s : State) (w : ω) (label : Bytes) (owner : Address)
    (years maxPrice nowUnix : UInt64) : Prop where
  sale   : isAvailable s label nowUnix = true ↔
    ∀ e, register out addr env s w label owner years maxPrice nowUnix ≠ .error (.error e)
  status : isAvailable s label nowUnix = true ↔ OpenByStatus s label nowUnix

theorem viewsAgree_iff (hs : GraceBounded s) (h : Eligible s env label owner years maxPrice nowUnix) :
    ViewsAgree out self env s w label owner years maxPrice nowUnix ↔
      (Free s label nowUnix → Sellable s label) := by
  constructor
  · intro hagree hfree
    exact ((register_not_refused_iff h).mp (hagree.sale.mp (isAvailable_iff.mpr hfree))).2
  · intro hsell
    constructor
    · rw [isAvailable_iff, register_not_refused_iff h]
      exact ⟨fun hfree => ⟨hfree, hsell hfree⟩, And.left⟩
    · rw [isAvailable_iff, openByStatus_iff hs]
      exact ⟨fun hfree => ⟨hfree, (hsell hfree).1⟩, And.left⟩

/-- The default grace period applies before `initialize`, too. -/
theorem graceBounded_empty : GraceBounded State.empty := by
  have hdefault := graceBounded_initialized ⟨[]⟩ ⟨[]⟩
  exact ⟨hdefault.least, hdefault.most, fun _ _ hrecord => nomatch hrecord⟩

/-- **Availability views agree** on a label exactly when it is not both free and off sale: in every state the registrar
    reaches from its fresh deployment, at every time and for every eligible buyer, whatever the registry does. -/
theorem availability_agrees_iff (out : Outside ω) (self : Address) (w : ω) (ts : List (Tx Call)) (env : Env) (label : Bytes)
    (owner : Address) (years maxPrice nowUnix : UInt64)
    (h : Eligible (run (step out self) (State.empty, w) ts).1 env label owner years maxPrice nowUnix) :
    ViewsAgree out self env (run (step out self) (State.empty, w) ts).1 (run (step out self) (State.empty, w) ts).2 label
        owner years maxPrice nowUnix ↔
      (Free (run (step out self) (State.empty, w) ts).1 label nowUnix →
        Sellable (run (step out self) (State.empty, w) ts).1 label) :=
  viewsAgree_iff ((preserves_graceBounded out self).run ts graceBounded_empty) h

namespace ReservedLabel

open Cast

/-- The admin reserves `vip`. -/
def setUp : List (Tx Call) :=
  [⟨⟨900, [admin], none⟩, .initializeContract registry admin⟩, ⟨⟨900, [admin], none⟩, .reserveLabel (ascii "vip")⟩]

/-- The registrar after that. -/
def afterwards : State := (run (step accepting registrar) (State.empty, ()) setUp).1

theorem alice_eligible (label : Bytes) : Eligible afterwards signed label alice 1 1000000000 1000 where
  signed := by decide
  limit  := Or.inr (by decide +kernel)
  term   := by decide
  price  := by
    show saturatingMul (priceForLabelLength label.length) 1 ≤ 1000000000
    unfold priceForLabelLength
    split_ifs <;> decide

/-- `vip` is offered, though nobody can buy it and its status says so. -/
theorem reserved_label_offered :
    Eligible afterwards signed (ascii "vip") alice 1 1000000000 1000 ∧ isAvailable afterwards (ascii "vip") 1000 = true ∧
      register accepting registrar signed afterwards () (ascii "vip") alice 1 1000000000 1000
        = .error (.error .reserved) ∧
      registrationStatus afterwards (ascii "vip") 1000 = .reserved :=
  ⟨alice_eligible _, by decide +kernel, by rfl, by decide +kernel⟩

/-- About any other label the views agree. -/
theorem other_label_agrees :
    ViewsAgree accepting registrar signed afterwards () (ascii "alice") alice 1 1000000000 1000 := by
  apply (availability_agrees_iff accepting registrar () setUp signed _ alice 1 1000000000 1000 (alice_eligible _)).mpr
  intro _
  exact ⟨by decide +kernel, by decide +kernel⟩

end ReservedLabel

end XlmNs.Registrar
