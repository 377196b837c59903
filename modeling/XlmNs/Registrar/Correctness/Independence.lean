import XlmNs.Registrar.Steps
import XlmNs.Soroban.Commuting

/-!
# `Registrar.Correctness.Independence` — two sales of different names to different owners

A sale reads the record of its own name, the counter of its own owner and the configuration, and writes that record,
that counter and the two totals. `registerChecks` is the part that reads; `afterRegister` the part that writes. Neither
sees a sale of another name to another owner (`registerChecks_afterRegister`, `afterRegister_comm`), so `register`
after such a sale is `register` before it with the sale carried over (`register_afterRegister`).
-/

namespace XlmNs.Registrar

open Soroban

variable {ω : Type} {out : Outside ω} {self : Address} {env : Env} {s : State} {w : ω}
variable {name name' label label' : Bytes} {owner owner' : Address} {years maxPrice nowUnix nowUnix' : UInt64}
variable {quote quote' : RegistrationQuote}

/-! ## What a sale checks -/

/-- The checks of `register`, in their order, and the name they end with. -/
def registerChecks (env : Env) (s : State) (label : Bytes) (owner : Address) (years maxPrice nowUnix : UInt64) :
    Result Bytes := do
  requireAuth env owner
  mapErr (validateLabelSoroban label) .validation
  require (nowUnix ≤ saturatingAdd nowUnix quoteValiditySeconds) .quoteExpired
  mapErr (validateRegistrationYearsSoroban years) .validation
  require ((s.reserved label).getD false = false) .reserved
  checkRateLimit s owner nowUnix
  require ((buildQuote s label years nowUnix).feeStroops ≤ maxPrice) .insufficientFee
  require (nowUnix ≤ (buildQuote s label years nowUnix).validUntil) .quoteExpired
  let name ← mapErr (buildXlmName label) .validation
  require (∀ existing ∈ s.registration name, existing.gracePeriodEndsAt < nowUnix) .alreadyRegistered
  return name

/-- The registry call of a sale of `name`. -/
def saleCall (name : Bytes) (owner : Address) (quote : RegistrationQuote) (nowUnix : UInt64) : RegistryCall :=
  .register name owner none none nowUnix quote.expiryUnix quote.gracePeriodEndsAt

/-- **A sale is its checks, the registry call and the write.** -/
theorem register_eq_checks :
    register out self env s w label owner years maxPrice nowUnix =
      registerChecks env s label owner years maxPrice nowUnix >>= fun name =>
        (callRegistry out self env s (saleCall name owner (buildQuote s label years nowUnix) nowUnix) w).map
          (fun w' => (afterRegister s name owner (buildQuote s label years nowUnix) nowUnix, w')) := by
  unfold register registerChecks
  simp only [bind_assoc, pure_bind]
  rfl

theorem registerChecks_eq_ok (h : registerChecks env s label owner years maxPrice nowUnix = .ok name) :
    buildXlmName label = .ok name ∧ ∀ existing ∈ s.registration name, existing.gracePeriodEndsAt < nowUnix := by
  simp only [registerChecks, bind_eq_ok, mapErr_eq_ok, require_eq_ok, pure_eq_ok, exists_const] at h
  obtain ⟨_, _, _, _, _, _, _, _, _, _, _, _, name, hname, hfree, rfl⟩ := h
  exact ⟨hname, hfree⟩

/-! ## What a sale of another name to another owner leaves alone -/

theorem registration_afterRegister (hn : name' ≠ name) :
    (afterRegister s name owner quote nowUnix).registration name' = s.registration name' :=
  Store.set_ne _ _ hn

theorem getRegistrationsInWindow_afterRegister (ho : owner' ≠ owner) :
    getRegistrationsInWindow (afterRegister s name owner quote nowUnix) owner' nowUnix'
      = getRegistrationsInWindow s owner' nowUnix' := by
  have hkey : windowKey s owner' nowUnix' ≠ windowKey s owner nowUnix := fun h => ho (congrArg Prod.fst h)
  exact congrArg (Option.getD · 0) (Store.set_ne _ _ hkey)

theorem checkRateLimit_afterRegister (ho : owner' ≠ owner) :
    checkRateLimit (afterRegister s name owner quote nowUnix) owner' nowUnix' = checkRateLimit s owner' nowUnix' := by
  unfold checkRateLimit
  rw [getRegistrationsInWindow_afterRegister ho]
  rfl

/-- **The checks do not see it.** -/
theorem registerChecks_afterRegister (hn : buildXlmName label' ≠ .ok name) (ho : owner' ≠ owner) :
    registerChecks env (afterRegister s name owner quote nowUnix) label' owner' years maxPrice nowUnix'
      = registerChecks env s label' owner' years maxPrice nowUnix' := by
  unfold registerChecks
  rw [checkRateLimit_afterRegister ho]
  cases hname : buildXlmName label' with
  | error e => rfl
  | ok name' =>
      have hne : name' ≠ name := fun h => hn (h ▸ hname)
      simp only [mapErr, ok_bind_outcome, registration_afterRegister hne]
      rfl

/-- **The writes commute with it.** -/
theorem afterRegister_comm (hn : name ≠ name') (ho : owner ≠ owner') :
    afterRegister (afterRegister s name owner quote nowUnix) name' owner' quote' nowUnix'
      = afterRegister (afterRegister s name' owner' quote' nowUnix') name owner quote nowUnix := by
  have hkey : windowKey s owner nowUnix ≠ windowKey s owner' nowUnix' := fun h => ho (congrArg Prod.fst h)
  simp only [afterRegister, creditRegistration, recordRegistration, putRegistration, State.mk.injEq, true_and, and_true]
  refine ⟨Store.set_comm _ _ _ hn, ?_, ?_⟩
  -- both credit what the treasury held, and saturate together
  · exact congrArg some (saturatingAdd_right_comm _ _ _)
  · exact Store.rewrite_comm (fun count => saturatingAdd (count.getD 0) 1) (fun count => saturatingAdd (count.getD 0) 1)
      hkey.symm s.registrationWindow

/-- **`register` after such a sale is `register` before it, with the sale carried over**, if the registry call is. -/
theorem register_afterRegister (hn : buildXlmName label' ≠ .ok name) (ho : owner' ≠ owner) {G : ω → ω}
    (hcall : ∀ env addr name' quote', name' ≠ name →
      out.registry env addr (saleCall name' owner' quote' nowUnix') (G w)
        = (out.registry env addr (saleCall name' owner' quote' nowUnix') w).map G) :
    register out self env (afterRegister s name owner quote nowUnix) (G w) label' owner' years maxPrice nowUnix'
      = (register out self env s w label' owner' years maxPrice nowUnix').map
          (Prod.map (fun s => afterRegister s name owner quote nowUnix) G) := by
  rw [register_eq_checks, register_eq_checks, registerChecks_afterRegister hn ho, map_bind_outcome]
  refine bind_congr_outcome (fun name' hpass => ?_)
  have hne : name' ≠ name := fun h => hn (h ▸ (registerChecks_eq_ok hpass).1)
  have hnested : callRegistry out self env (afterRegister s name owner quote nowUnix)
      (saleCall name' owner' (buildQuote s label' years nowUnix') nowUnix') (G w)
        = (callRegistry out self env s (saleCall name' owner' (buildQuote s label' years nowUnix') nowUnix') w).map G := by
    unfold callRegistry
    rw [map_bind_outcome]
    refine bind_congr_outcome (fun registry _ => ?_)
    rw [hcall _ _ _ _ hne, invoke_map]
  show (callRegistry out self env (afterRegister s name owner quote nowUnix)
      (saleCall name' owner' (buildQuote s label' years nowUnix') nowUnix') (G w)).map _ = _
  rw [hnested]
  cases callRegistry out self env s (saleCall name' owner' (buildQuote s label' years nowUnix') nowUnix') w with
  | error x => rfl
  | ok w' => exact congrArg (fun s' => Except.ok (s', G w')) (afterRegister_comm (Ne.symm hne) (Ne.symm ho))

end XlmNs.Registrar
