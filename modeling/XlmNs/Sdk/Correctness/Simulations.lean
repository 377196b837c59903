import XlmNs.Sdk.Correctness.Submissions

/-!
# `Sdk.Correctness.Simulations` — what a simulation says about the write

`simulate_register` and `simulate_renew` are what a caller looks at "before committing". `register_foretold` and
`renew_foretold` say how much they tell, at whatever times and in whatever states of the world the two calls are made: a
simulation that fails is a write that fails with the same error, and after one that succeeds the network check alone
decides on the write, which then costs the estimate.

A write and its simulation start with the same checks of the arguments. `Foretells` is kept under such a common beginning
(`Foretells.bind`), so only what comes after it is looked at.
-/

namespace XlmNs.Sdk

open Soroban

variable {ω α β γ : Type} {R : γ → β → Prop}

/-- The action `sim`, wherever it runs, tells what `write` does once `network` lets it pass. -/
structure Foretells (sim : Action ω γ) (network : Action ω Unit) (write : Action ω β) (R : γ → β → Prop) : Prop where
  refused : ∀ {u w u' : ω} {e : SdkError}, sim u = (.error e, u') → write w = (.error e, w)
  granted : ∀ {u w u' w' : ω} {c : γ} {r : Except SdkError β}, sim u = (.ok c, u') → write w = (r, w') →
    (∀ e, r = .error e → network w = (.error e, w')) ∧ (∀ b, r = .ok b → R c b ∧ ∃ w₁, network w = (.ok (), w₁))

/-- An action that answers the same everywhere and leaves the world alone. -/
def Looks (x : Action ω α) (r : Except SdkError α) : Prop := ∀ w, x w = (r, w)

theorem Looks.bind_ok {x : Action ω α} {a : α} (h : Looks x (.ok a)) (f : α → Action ω β) (w : ω) :
    (x >>= f) w = f a w := by
  rw [Action.bind_run, h w]

theorem Looks.bind_error {x : Action ω α} {e : SdkError} (h : Looks x (.error e)) (f : α → Action ω β) (w : ω) :
    (x >>= f) w = (.error e, w) := by
  rw [Action.bind_run, h w]

theorem check_looks (b : Bool) (message : String) :
    Looks (check b message : Action ω Unit) (if b then .ok () else .error (.invalidRequest message)) := by
  intro w
  cases b <;> rfl

theorem requireContractId_looks (ω : Type) (contractId : Option String) (fieldName : String) :
    ∃ r, Looks (requireContractId contractId fieldName : Action ω String) r := by
  unfold requireContractId
  cases contractId with
  | none => exact ⟨_, fun _ => rfl⟩
  | some given =>
      cases hvalid : validateContractId given with
      | ok u => exact ⟨.ok given, fun w => by simp only [hvalid]; rfl⟩
      | error err => exact ⟨_, fun w => by simp only [hvalid]; rfl⟩

/-! ## A common beginning -/

variable {network : Action ω Unit}

theorem Foretells.bind {start : Action ω α} {r : Except SdkError α} {f : α → Action ω γ} {g : α → Action ω β}
    (hstart : Looks start r) (h : ∀ a, Looks start (.ok a) → Foretells (f a) network (g a) R) :
    Foretells (start >>= f) network (start >>= g) R := by
  cases r with
  | error e =>
      constructor
      · intro u w u' e' hsim
        rw [hstart.bind_error] at hsim ⊢
        rw [Except.error.inj (Prod.mk.inj hsim).1]
      · intro u w u' w' c r hsim _
        rw [hstart.bind_error] at hsim
        cases (Prod.mk.inj hsim).1
  | ok a =>
      constructor
      · intro u w u' e hsim
        rw [hstart.bind_ok] at hsim ⊢
        exact (h a hstart).refused hsim
      · intro u w u' w' c r hsim hwrite
        rw [hstart.bind_ok] at hsim hwrite
        exact (h a hstart).granted hsim hwrite

/-- Past the checks: neither the simulation nor what follows the network check fails. -/
theorem Foretells.rest {sim : Action ω γ} {write : Unit → Action ω β}
    (hsim : ∀ u, ∃ c u', sim u = (.ok c, u')) (hwrite : ∀ w, ∃ b w', write () w = (.ok b, w'))
    (hR : ∀ {u u' w w' c b}, sim u = (.ok c, u') → write () w = (.ok b, w') → R c b) :
    Foretells sim network (network >>= write) R := by
  constructor
  · intro u w u' e hfails
    obtain ⟨c, u₁, hok⟩ := hsim u
    cases (Prod.mk.inj (hok.symm.trans hfails)).1
  · intro u w u' w' c r hok hrun
    rw [Action.bind_run] at hrun
    rcases hnetwork : network w with ⟨e | ⟨⟩, w₁⟩
    · rw [hnetwork] at hrun
      obtain ⟨rfl, rfl⟩ := Prod.mk.inj hrun
      exact ⟨fun e' he => by rw [Except.error.inj he], nofun⟩
    · rw [hnetwork] at hrun
      obtain ⟨b, w₂, hb⟩ := hwrite w₁
      obtain ⟨rfl, rfl⟩ := Prod.mk.inj (hb.symm.trans hrun)
      refine ⟨nofun, fun b' hb' => ?_⟩
      obtain rfl := Except.ok.inj hb'
      exact ⟨hR hok hb, w₁, rfl⟩

/-! ## The two simulations -/

/-- Its arguments checked, a quote cannot fail. -/
theorem quoteRegistration_eq (out : Outside ω) (client : XlmNsClient) {label id : String} {years : UInt32}
    (hlabel : Looks (requireLabel label "label" : Action ω Unit) (.ok ()))
    (hyears : Looks (check (years != 0) "duration_years must be greater than zero" : Action ω Unit) (.ok ()))
    (hid : Looks (requireContractId client.registrarContractId "registrar contract ID" : Action ω String) (.ok id))
    (w : ω) :
    client.quoteRegistration out label years w =
      (.ok (buildQuote label years (out.nowUnix w).1 id), (out.nowUnix w).2) := by
  unfold XlmNsClient.quoteRegistration
  rw [hlabel.bind_ok, hyears.bind_ok, hid.bind_ok]

/-- **What simulating a registration tells.** -/
theorem register_foretold (out : Outside ω) (client : XlmNsClient) (label owner : String) (years : UInt32)
    (signer : Option String) :
    Foretells (client.simulateRegister out label owner years) (client.verifyWriteNetwork out)
      (client.register out label owner years signer)
      (fun sim receipt => sim.success = true ∧ sim.error = none ∧ sim.authAddresses = [receipt.owner] ∧
        receipt.feePaid = sim.feeEstimate) := by
  refine .bind (check_looks _ _) fun _ hlabel => ?_
  refine .bind (check_looks _ _) fun _ _ => ?_
  refine .bind (check_looks _ _) fun _ hyears => ?_
  obtain ⟨r, hlooks⟩ := requireContractId_looks ω client.registrarContractId "registrar contract ID"
  refine .bind hlooks fun id hid => ?_
  have hquote := quoteRegistration_eq out client hlabel hyears hid
  refine .rest ?_ ?_ ?_
  · intro u
    exact ⟨_, _, Action.bind_eq_ok.mpr ⟨_, _, hquote u, rfl⟩⟩
  · intro w
    obtain ⟨s, w', hpoll, _⟩ := maybeHydrate_spec out client
      (client.submission out "register" label client.registrarContractId signer) (out.nowUnix w).2
    exact ⟨_, w', Action.bind_eq_ok.mpr ⟨_, _, hquote w, Action.bind_eq_ok.mpr ⟨s, w', hpoll, rfl⟩⟩⟩
  · intro u u' w w' c b hsim hrun
    obtain ⟨quote, _, hq, hc⟩ := Action.bind_eq_ok.mp hsim
    obtain ⟨rfl, _⟩ := Action.pure_eq_ok.mp hc
    obtain rfl := Except.ok.inj (Prod.mk.inj ((hquote u).symm.trans hq)).1
    obtain ⟨quote', w₁, hq', hrest⟩ := Action.bind_eq_ok.mp hrun
    obtain rfl := Except.ok.inj (Prod.mk.inj ((hquote w).symm.trans hq')).1
    obtain ⟨s, w₂, _, hb⟩ := Action.bind_eq_ok.mp hrest
    obtain ⟨rfl, _⟩ := Action.pure_eq_ok.mp hb
    -- the fee does not depend on when the quote is made
    exact ⟨rfl, rfl, rfl, rfl⟩

/-- **What simulating a renewal tells.** -/
theorem renew_foretold (out : Outside ω) (client : XlmNsClient) (name : String) (years : UInt32)
    (signer : Option String) :
    Foretells (client.simulateRenew name years) (client.verifyWriteNetwork out)
      (client.renew out name years signer)
      (fun sim receipt => sim.success = true ∧ sim.error = none ∧ receipt.feePaid = sim.feeEstimate) := by
  refine .bind (check_looks _ _) fun _ _ => ?_
  refine .bind (check_looks _ _) fun _ _ => ?_
  obtain ⟨r, hlooks⟩ := requireContractId_looks ω client.registrarContractId "registrar contract ID"
  refine .bind hlooks fun _ _ => ?_
  refine .rest (fun u => ⟨_, u, rfl⟩) ?_ ?_
  · intro w
    obtain ⟨s, w', hpoll, _⟩ := maybeHydrate_spec out client
      (client.submission out "renew" name client.registrarContractId signer) w
    exact ⟨_, w', Action.bind_eq_ok.mpr ⟨s, w', hpoll, rfl⟩⟩
  · intro u u' w w' c b hsim hrun
    obtain ⟨rfl, _⟩ := Action.pure_eq_ok.mp hsim
    obtain ⟨s, w₁, _, hb⟩ := Action.bind_eq_ok.mp hrun
    obtain ⟨rfl, _⟩ := Action.pure_eq_ok.mp hb
    exact ⟨rfl, rfl, rfl⟩

end XlmNs.Sdk
