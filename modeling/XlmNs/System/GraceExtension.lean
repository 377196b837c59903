import XlmNs.System.RegistrarRegistry

/-!
# `System.GraceExtension` — the two ways to renew an expired name

`extend_during_grace` repeats the code of `renew`, with the window checked in two steps and the renewal counted from
`now_unix` without asking for the later of it and the expiry. In the grace window of the record the two are the same
function (`extendDuringGrace_eq_renew`): they return the same storage, make the same registry call and fail with the
same error. Outside it `extend_during_grace` refuses.
-/

namespace XlmNs.Registrar

open Soroban

variable {ω : Type} {out : Outside ω} {self : Address} {env : Env} {s : State} {w : ω}
variable {name : Bytes} {caller : Address} {years paymentStroops nowUnix : UInt64}

/-- The name has a record that is past its expiry and not past its grace period. -/
def InGrace (s : State) (name : Bytes) (nowUnix : UInt64) : Prop :=
  ∃ record, s.registration name = some record ∧ record.expiresAt < nowUnix ∧ nowUnix ≤ record.gracePeriodEndsAt

/-- **In the grace window `extend_during_grace` is `renew`**, whatever the registry does. -/
theorem extendDuringGrace_eq_renew (h : InGrace s name nowUnix) :
    extendDuringGrace out self env s w name caller years paymentStroops nowUnix
      = renew out self env s w name caller years paymentStroops nowUnix := by
  obtain ⟨record, hrecord, hexpired, hopen⟩ := h
  have hlate : require (record.expiresAt < nowUnix) RegistrarError.notRenewable = .ok () :=
    require_eq_ok.mpr hexpired
  have hwindow : require (nowUnix ≤ record.gracePeriodEndsAt) RegistrarError.registrationClaimable = .ok () :=
    require_eq_ok.mpr hopen
  have hrenewable : canRenew record.gracePeriodEndsAt nowUnix = .ok true := canRenew_eq_ok.mpr ⟨hopen, rfl⟩
  unfold extendDuringGrace renew
  -- the checks before the window are the same ones in the same order
  apply bind_congr_outcome
  intro _ _
  apply bind_congr_outcome
  intro label _
  apply bind_congr_outcome
  intro _ _
  rw [hrecord]
  apply bind_congr_outcome
  rintro _ ⟨⟩
  apply bind_congr_outcome
  intro _ _
  -- the window itself is open on both sides
  rw [hlate, hwindow, hrenewable, baseTime_expired hexpired]
  rfl

/-- **Outside the grace window it is refused.** -/
theorem extendDuringGrace_refused (h : ¬ InGrace s name nowUnix) :
    ∃ f, extendDuringGrace out self env s w name caller years paymentStroops nowUnix = .error f := by
  cases hresult : extendDuringGrace out self env s w name caller years paymentStroops nowUnix with
  | error f => exact ⟨f, rfl⟩
  | ok sw =>
      obtain ⟨_, _, _, _, record, hrecord, _, hexpired, hopen, _⟩ := extendDuringGrace_eq_ok.mp hresult
      exact absurd ⟨record, hrecord, hexpired, hopen⟩ h

end XlmNs.Registrar

namespace XlmNs.RegistrarRegistry

open Soroban Registrar

/-- **`extend_during_grace` equals `renew` in the grace window**, and outside it always fails and changes nothing: in
    every state of registrar and registry, reachable or not, and for all arguments. Equal outcomes are equal errors,
    or equal storage of both contracts. -/
theorem extension_is_renewal {ω : Type} (out : Registry.Outside ω) (d : Deployment) (s : State ω) (env : Env)
    (name : Bytes) (caller : Address) (years paymentStroops nowUnix : UInt64) :
    (InGrace s.registrar name nowUnix →
      step out d s ⟨env, .registrar (.extendDuringGrace name caller years paymentStroops nowUnix)⟩
        = step out d s ⟨env, .registrar (.renew name caller years paymentStroops nowUnix)⟩) ∧
    (¬ InGrace s.registrar name nowUnix →
      (∃ f, step out d s ⟨env, .registrar (.extendDuringGrace name caller years paymentStroops nowUnix)⟩ = .error f) ∧
      exec (step out d) s ⟨env, .registrar (.extendDuringGrace name caller years paymentStroops nowUnix)⟩ = s) := by
  constructor
  · intro h
    simp only [step, Registrar.step]
    rw [extendDuringGrace_eq_renew h]
  · intro h
    obtain ⟨f, hf⟩ : ∃ f, extendDuringGrace (theRegistry out d) d.registrar env s.registrar (s.registry, s.world) name
        caller years paymentStroops nowUnix = .error f := extendDuringGrace_refused h
    have hrefused :
        step out d s ⟨env, .registrar (.extendDuringGrace name caller years paymentStroops nowUnix)⟩
          = .error (.registrar f) := by
      simp only [step, Registrar.step]
      rw [hf]
      rfl
    exact ⟨⟨_, hrefused⟩, exec_error hrefused⟩

end XlmNs.RegistrarRegistry
