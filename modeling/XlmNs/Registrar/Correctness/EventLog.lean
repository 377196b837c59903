import XlmNs.Registrar.Events
import XlmNs.Registrar.Steps

/-!
# `Registrar.Correctness.EventLog` — what the log of the registrar tells

`books_replay`: from any state on, the log of a run takes the books of the first state to those of the last. Treasury and
counters saturate alike on both sides, the quotes published are the bounds stored, and a setting is published by every
call that changes it. `initialize` publishes nothing and needs to: it stores the defaults the getters gave before.
-/

namespace XlmNs.Registrar

open Soroban

variable {ω : Type} {out : Outside ω} {self : Address} {env : Env} {s s' : State} {w w' : ω} {c : Call}
variable {name label : Bytes}

/-! ## Flags -/

/-- A flag that is absent reads as unset. -/
theorem flags_set {κ : Type} [DecidableEq κ] (m : Store κ Bool) (k : κ) :
    (fun j => ((m.set k true) j).getD false) = Function.update (fun j => (m j).getD false) k true := by
  funext j
  rw [Store.set_apply, Function.update_apply]
  split <;> rfl

theorem flags_remove {κ : Type} [DecidableEq κ] (m : Store κ Bool) (k : κ) :
    (fun j => ((m.remove k) j).getD false) = Function.update (fun j => (m j).getD false) k false := by
  funext j
  rw [Store.remove_apply, Function.update_apply]
  split <;> rfl

/-! ## Reserved labels -/

/-- Reserving a label, told. -/
theorem reserve_told (s : State) (label : Bytes) : (books s).apply (reserveEvent s label) = books (addReserved s label) := by
  unfold reserveEvent addReserved
  by_cases hreserved : (s.reserved label).getD false = true
  · rw [if_pos hreserved, if_pos hreserved]
    rfl
  · rw [if_neg hreserved, if_neg hreserved]
    show { books s with reserved := Function.update (books s).reserved label true } = _
    rw [show (books s).reserved = fun other => (s.reserved other).getD false from rfl, ← flags_set]
    rfl

theorem load_told (s : State) (labels : List Bytes) (addedCount : UInt32) :
    replay Books.apply (books s) (loadEvents s labels) = books (loadReserved s addedCount labels).1 := by
  induction labels generalizing s addedCount with
  | nil => rfl
  | cons label labels ih =>
      unfold loadEvents loadReserved
      cases validateLabelSoroban label with
      | error e => exact ih s addedCount
      | ok u =>
          simp only
          rw [replay_cons, reserve_told]
          exact ih _ _

/-! ## Sales -/

theorem sale_told (hname : buildXlmName label = .ok name) (owner : Address) (quote : RegistrationQuote)
    (nowUnix : UInt64) :
    (books s).sell label owner quote.feeStroops quote.expiryUnix quote.gracePeriodEndsAt =
      books (afterRegister s name owner quote nowUnix) := by
  have hview := Store.view_set RegistrationRecord.sold s.registration name (soldRecord name owner quote nowUnix)
  unfold Books.sell
  rw [hname]
  simp only [books, afterRegister, creditRegistration, recordRegistration, putRegistration, hview]
  rfl

theorem renewal_told {record : RegistrationRecord} (hrecord : s.registration name = some record)
    (expiresAt paymentStroops nowUnix : UInt64) :
    (books s).renew name paymentStroops expiresAt (computeGracePeriodEndsAt s expiresAt) =
      books (afterRenewal s name record expiresAt paymentStroops nowUnix) := by
  have hview := Store.view_set RegistrationRecord.sold s.registration name
    (renewedRecord s record expiresAt paymentStroops nowUnix)
  have hsold : (books s).sold name = some record.sold := Store.view_eq _ hrecord
  unfold Books.renew
  rw [hsold]
  simp only [books, afterRenewal, creditRenewal, putRegistration, hview]
  rfl

/-! ## Every committed invocation -/

theorem administration_told (h : Administration env s s' c) (hadmin : ∀ data, c = .upgrade data → ∃ a, s.admin = some a) :
    replay Books.apply (books s) (events s ⟨env, c⟩) = books s' := by
  cases h with
  | initializeContract _ => rfl
  | @upgrade data =>
      obtain ⟨admin, hsome⟩ := hadmin data rfl
      simp only [events, hsome]
      rfl
  | @reserveLabel label _ => exact reserve_told s label
  | @loadReservedManifest labels => exact load_told s labels 0
  | setRateLimitConfig | setGracePeriod _ => rfl
  | @whitelistAddress address =>
      show { books s with whitelisted := Function.update (books s).whitelisted address true } = _
      rw [show (books s).whitelisted = fun other => (s.whitelistedAddress other).getD false from rfl, ← flags_set]
      rfl
  | @removeWhitelistAddress address =>
      show { books s with whitelisted := Function.update (books s).whitelisted address false } = _
      rw [show (books s).whitelisted = fun other => (s.whitelistedAddress other).getD false from rfl, ← flags_remove]
      rfl

/-- **A renewal publishes the bounds it stores**, under the name of its entrypoint. -/
theorem events_renewal {caller : Address} {years paymentStroops nowUnix : UInt64} {record : RegistrationRecord}
    (h : step out self (s, w) ⟨env, c⟩ = .ok (s', w')) (hrecord : s.registration name = some record)
    (hcall : c = .renew name caller years paymentStroops nowUnix ∨
      c = .extendDuringGrace name caller years paymentStroops nowUnix) :
    let expiresAt := expiryFromNow (baseTime record nowUnix) years
    events s ⟨env, c⟩ = [.renewed name caller paymentStroops expiresAt (computeGracePeriodEndsAt s expiresAt)] ∨
      events s ⟨env, c⟩ = [.grrenew name caller paymentStroops expiresAt (computeGracePeriodEndsAt s expiresAt)] := by
  intro expiresAt
  rcases hcall with rfl | rfl
  · left
    simp only [events, renewalEvents, hrecord]
    rfl
  -- the name has expired, so that both base times are `now_unix`
  · right
    obtain ⟨_, _, _, _, record', hrecord', _, hexpired, _⟩ := extendDuringGrace_eq_ok.mp h
    obtain rfl := Option.some.inj (hrecord.symm.trans hrecord')
    simp only [events, renewalEvents, hrecord]
    rw [← baseTime_expired hexpired]

/-- **The events of a committed invocation tell what it did to the books.** -/
theorem step_told (h : step out self (s, w) ⟨env, c⟩ = .ok (s', w')) :
    replay Books.apply (books s) (events s ⟨env, c⟩) = books s' := by
  have hchange := step_change h
  cases hchange with
  | quiet _ _ _ _ _ hcall _ =>
      refine administration_told (step_administration h hcall).1 ?_
      rintro data rfl
      simp only [step, upgrade, upgradeStoring_eq_ok, bind_eq_ok] at h
      obtain ⟨_, ⟨⟨admin, hadmin, _⟩, _⟩, _⟩ := h
      exact ⟨admin, hadmin⟩
  | register _ _ _ hname _ hstorage _ =>
      rw [hstorage]
      exact sale_told hname _ _ _
  | renewal hr hcall =>
      rw [hr.storage]
      rcases events_renewal h hr.record_eq hcall with hevents | hevents
      · rw [hevents]
        exact renewal_told hr.record_eq _ _ _
      · rw [hevents]
        exact renewal_told hr.record_eq _ _ _

/-- **The books can be kept from the log.** From any state on, whoever calls what and whatever the registry does, applying
    the events of a run to the books of the first state gives those of the last: every name sold with its owner, bounds and
    fees paid, the treasury, the counts of registrations and renewals, the reserved labels, the rate limit, the grace period
    and the whitelist. -/
theorem books_replay (out : Outside ω) (self : Address) (sw : State × ω) (ts : List (Tx Call)) :
    replay Books.apply (books sw.1) (eventLog out self sw ts) = books (run (step out self) sw ts).1 := by
  have htells : ∀ (sw : State × ω) t, Tells (step out self) (fun sw t => events sw.1 t) Books.apply
      (fun sw => books sw.1) sw t := by
    rintro ⟨s, w⟩ ⟨env, c⟩ ⟨s', w'⟩ hok
    exact step_told hok
  exact replay_of_tells htells sw ts

end XlmNs.Registrar
