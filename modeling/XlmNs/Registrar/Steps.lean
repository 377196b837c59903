import XlmNs.Registrar.Contract

/-!
# `Registrar.Steps` — what a committed registrar invocation did

`register_eq_ok` and `renew_eq_ok` read the sales backwards, `step_administration` the administrative calls. `Change`
sorts every committed invocation into three kinds: a *quiet* one that sells nothing and calls nobody, a registration, and
a renewal (`renew` or `extend_during_grace`). `step_change` derives it once; `step_administers` says what the quiet ones do
to counters and grace period.
-/

namespace XlmNs.Registrar

open Soroban

variable {ω : Type} {out : Outside ω} {self : Address} {env : Env} {s s' : State} {w w' : ω}
variable {name label : Bytes} {owner caller : Address} {years nowUnix maxPrice paymentStroops : UInt64}

/-! ## Checks -/

/-- `owner` may still register at `nowUnix`. -/
def WithinLimit (s : State) (owner : Address) (nowUnix : UInt64) : Prop :=
  isWhitelisted s owner = true ∨
    getRegistrationsInWindow s owner nowUnix < (getRateLimitConfig s).maxRegistrationsPerWindow

/-- The rate limit lets through whom it does not bind, and who has registrations left. -/
theorem checkRateLimit_eq_ok {u : Unit} :
    checkRateLimit s owner nowUnix = .ok u ↔ WithinLimit s owner nowUnix := by
  unfold checkRateLimit WithinLimit
  split
  · rename_i h; simp [h]
  · rename_i h; simp [h]

/-- A name may be renewed while its grace period lasts. -/
theorem canRenew_eq_ok {gracePeriodEndsAt : UInt64} {b : Bool} :
    canRenew gracePeriodEndsAt nowUnix = .ok b ↔ nowUnix ≤ gracePeriodEndsAt ∧ b = true := by
  simp only [canRenew, bind_eq_ok, require_eq_ok, pure_eq_ok, exists_const]
  exact and_congr_right (fun _ => eq_comm)

/-- A registry is configured and accepts the call. -/
theorem callRegistry_eq_ok {call : RegistryCall} :
    callRegistry out self env s call w = .ok w' ↔
      ∃ registry, s.registry = some registry ∧
        out.registry (env.callFrom self) registry call w = some w' := by
  simp only [callRegistry, bind_eq_ok, okOr_eq_ok, invoke_eq_ok]

/-! ## Sales -/

/-- The storage after a registration. -/
def afterRegister (s : State) (name : Bytes) (owner : Address) (quote : RegistrationQuote)
    (nowUnix : UInt64) : State :=
  creditRegistration (recordRegistration (putRegistration s name (soldRecord name owner quote nowUnix))
    owner nowUnix) quote.feeStroops

/-- **A committed `register`**: what it asked for, what it wrote, and that the registry accepted it. -/
theorem register_eq_ok :
    register out self env s w label owner years maxPrice nowUnix = .ok (s', w') ↔
      env.Authorises owner ∧ validateLabelSoroban label = .ok () ∧
      nowUnix ≤ saturatingAdd nowUnix quoteValiditySeconds ∧
      validateRegistrationYearsSoroban years = .ok () ∧ (s.reserved label).getD false = false ∧
      WithinLimit s owner nowUnix ∧ (buildQuote s label years nowUnix).feeStroops ≤ maxPrice ∧
      ∃ name, buildXlmName label = .ok name ∧
        (∀ existing ∈ s.registration name, existing.gracePeriodEndsAt < nowUnix) ∧
        s' = afterRegister s name owner (buildQuote s label years nowUnix) nowUnix ∧
        callRegistry out self env s (.register name owner none none nowUnix
          (buildQuote s label years nowUnix).expiryUnix
          (buildQuote s label years nowUnix).gracePeriodEndsAt) w = .ok w' := by
  simp only [register, bind_eq_ok, requireAuth_eq_ok, mapErr_eq_ok, require_eq_ok, checkRateLimit_eq_ok,
    pure_eq_ok, Prod.mk.injEq, exists_const]
  constructor
  · rintro ⟨ha, ⟨⟩, hv, hq, ⟨⟩, hy, hr, hl, hf, _, name, hn, he, w₁, hc, rfl, rfl⟩
    exact ⟨ha, hv, hq, hy, hr, hl, hf, name, hn, he, rfl, hc⟩
  · rintro ⟨ha, hv, hq, hy, hr, hl, hf, name, hn, he, rfl, hc⟩
    exact ⟨ha, (), hv, hq, (), hy, hr, hl, hf, hq, name, hn, he, w', hc, rfl, rfl⟩

/-- The storage after a renewal up to `expiresAt`. -/
def afterRenewal (s : State) (name : Bytes) (record : RegistrationRecord)
    (expiresAt paymentStroops nowUnix : UInt64) : State :=
  creditRenewal (putRegistration s name (renewedRecord s record expiresAt paymentStroops nowUnix))
    paymentStroops

/-- What a renewal writes, once it is let through. -/
theorem commitRenewal_eq_ok {record : RegistrationRecord} {expiresAt : UInt64} :
    commitRenewal out self env s w name caller (renewedRecord s record expiresAt paymentStroops nowUnix)
        paymentStroops nowUnix = .ok (s', w') ↔
      s' = afterRenewal s name record expiresAt paymentStroops nowUnix ∧
      callRegistry out self env s
        (.renew name caller expiresAt (computeGracePeriodEndsAt s expiresAt) nowUnix) w = .ok w' := by
  simp only [commitRenewal, bind_eq_ok, pure_eq_ok, Prod.mk.injEq]
  constructor
  · rintro ⟨w₁, hc, rfl, rfl⟩; exact ⟨rfl, hc⟩
  · rintro ⟨rfl, hc⟩; exact ⟨w', hc, rfl, rfl⟩

/-- **A renewal by the record's owner**, whichever entrypoint made it: the new expiry is counted from
    `baseTime`, and the registry accepted the same bounds. -/
structure Renewal (out : Outside ω) (addr : Address) (env : Env) (s : State) (w : ω) (s' : State) (w' : ω)
    (name : Bytes) (caller : Address) (years paymentStroops nowUnix : UInt64)
    (record : RegistrationRecord) : Prop where
  authorised : env.Authorises caller
  record_eq  : s.registration name = some record
  owner_eq   : record.owner = caller
  years_ok   : validateRegistrationYearsSoroban years = .ok ()
  open_at    : nowUnix ≤ record.gracePeriodEndsAt
  storage    : s' = afterRenewal s name record (expiryFromNow (baseTime record nowUnix) years)
                 paymentStroops nowUnix
  registry   : callRegistry out addr env s (.renew name caller
                 (expiryFromNow (baseTime record nowUnix) years)
                 (computeGracePeriodEndsAt s (expiryFromNow (baseTime record nowUnix) years)) nowUnix) w
                   = .ok w'

/-- **A committed `renew`**: the caller owned a record that was not claimable, and paid enough. -/
theorem renew_eq_ok :
    renew out self env s w name caller years paymentStroops nowUnix = .ok (s', w') ↔
      env.Authorises caller ∧ ∃ label, extractLabelSoroban name = .ok label ∧
      validateRegistrationYearsSoroban years = .ok () ∧ ∃ record, s.registration name = some record ∧
      record.owner = caller ∧ nowUnix ≤ record.gracePeriodEndsAt ∧
      saturatingMul (priceForLabelLength label.length) years ≤ paymentStroops ∧
      s' = afterRenewal s name record (expiryFromNow (baseTime record nowUnix) years) paymentStroops nowUnix ∧
      callRegistry out self env s (.renew name caller (expiryFromNow (baseTime record nowUnix) years)
        (computeGracePeriodEndsAt s (expiryFromNow (baseTime record nowUnix) years)) nowUnix) w = .ok w' := by
  simp only [renew, bind_eq_ok, requireAuth_eq_ok, mapErr_eq_ok, okOr_eq_ok, require_eq_ok,
    canRenew_eq_ok, commitRenewal_eq_ok, exists_const]
  constructor
  · rintro ⟨ha, label, hlabel, ⟨⟩, hy, record, hr, ho, _, ⟨hopen, _⟩, _, hpaid, hs, hc⟩
    exact ⟨ha, label, hlabel, hy, record, hr, ho, hopen, hpaid, hs, hc⟩
  · rintro ⟨ha, label, hlabel, hy, record, hr, ho, hopen, hpaid, hs, hc⟩
    exact ⟨ha, label, hlabel, (), hy, record, hr, ho, true, ⟨hopen, rfl⟩, rfl, hpaid, hs, hc⟩

/-- After the expiry a renewal is counted from `nowUnix`. -/
theorem baseTime_expired {record : RegistrationRecord} (h : record.expiresAt < nowUnix) :
    baseTime record nowUnix = nowUnix :=
  if_neg (UInt64.lt_asymm h)

/-- `extend_during_grace` runs after the expiry, so its base time is `nowUnix` itself. -/
theorem extendDuringGrace_eq_ok :
    extendDuringGrace out self env s w name caller years paymentStroops nowUnix = .ok (s', w') ↔
      env.Authorises caller ∧ ∃ label, extractLabelSoroban name = .ok label ∧
      validateRegistrationYearsSoroban years = .ok () ∧ ∃ record, s.registration name = some record ∧
      record.owner = caller ∧ record.expiresAt < nowUnix ∧ nowUnix ≤ record.gracePeriodEndsAt ∧
      saturatingMul (priceForLabelLength label.length) years ≤ paymentStroops ∧
      s' = afterRenewal s name record (expiryFromNow (baseTime record nowUnix) years) paymentStroops nowUnix ∧
      callRegistry out self env s (.renew name caller (expiryFromNow (baseTime record nowUnix) years)
        (computeGracePeriodEndsAt s (expiryFromNow (baseTime record nowUnix) years)) nowUnix) w = .ok w' := by
  simp only [extendDuringGrace, bind_eq_ok, requireAuth_eq_ok, mapErr_eq_ok, okOr_eq_ok, require_eq_ok,
    commitRenewal_eq_ok, exists_const]
  constructor
  · rintro ⟨ha, label, hlabel, ⟨⟩, hy, record, hr, ho, hexp, hopen, hpaid, hs, hc⟩
    refine ⟨ha, label, hlabel, hy, record, hr, ho, hexp, hopen, hpaid, ?_, ?_⟩
    · rw [baseTime_expired hexp]
      exact hs
    · rw [baseTime_expired hexp]
      exact hc
  · rintro ⟨ha, label, hlabel, hy, record, hr, ho, hexp, hopen, hpaid, hs, hc⟩
    rw [baseTime_expired hexp] at hs hc
    exact ⟨ha, label, hlabel, (), hy, record, hr, ho, hexp, hopen, hpaid, hs, hc⟩

/-- `renew` is a renewal. -/
theorem renew_ok (h : renew out self env s w name caller years paymentStroops nowUnix = .ok (s', w')) :
    ∃ record, Renewal out self env s w s' w' name caller years paymentStroops nowUnix record := by
  obtain ⟨ha, _, _, hy, record, hr, ho, hopen, _, hs, hc⟩ := renew_eq_ok.mp h
  exact ⟨record, ha, hr, ho, hy, hopen, hs, hc⟩

/-- `extend_during_grace` is one, too. -/
theorem extendDuringGrace_ok
    (h : extendDuringGrace out self env s w name caller years paymentStroops nowUnix = .ok (s', w')) :
    ∃ record, Renewal out self env s w s' w' name caller years paymentStroops nowUnix record := by
  obtain ⟨ha, _, _, hy, record, hr, ho, _, hopen, _, hs, hc⟩ := extendDuringGrace_eq_ok.mp h
  exact ⟨record, ha, hr, ho, hy, hopen, hs, hc⟩

/-! ## Every committed invocation is one of three changes -/

/-- The calls that sell or prolong a registration. -/
def Call.isSale : Call → Bool
  | .register .. | .renew .. | .extendDuringGrace .. => true
  | _ => false

/-- **What a committed invocation did to the records, the counters and the registry.** -/
inductive Change (out : Outside ω) (self : Address) (env : Env) (s : State) (w : ω) (s' : State) (w' : ω) :
    Call → Prop
  /-- administration: no record, no counter and nothing outside changes -/
  | quiet {c : Call} (hrecord : s'.registration = s.registration)
      (hwindow : s'.registrationWindow = s.registrationWindow)
      (hregistry : ∀ registry, s.registry = some registry → s'.registry = some registry)
      (hconfig : (∀ size max, c ≠ .setRateLimitConfig size max) →
        getRateLimitConfig s' = getRateLimitConfig s)
      (hlisted : ∀ a, c ≠ .whitelistAddress a → isWhitelisted s' a = true → isWhitelisted s a = true)
      (hcall : c.isSale = false) (hworld : w' = w) :
      Change out self env s w s' w' c
  /-- a registration, over a record `nowUnix` is past the grace period of, if any -/
  | register {label name : Bytes} {owner : Address} {years maxPrice nowUnix : UInt64}
      (hauth : env.Authorises owner) (hlimit : WithinLimit s owner nowUnix)
      (hyears : validateRegistrationYearsSoroban years = .ok ())
      (hname : buildXlmName label = .ok name)
      (hfree : ∀ existing ∈ s.registration name, existing.gracePeriodEndsAt < nowUnix)
      (hstorage : s' = afterRegister s name owner (buildQuote s label years nowUnix) nowUnix)
      (hcall : callRegistry out self env s (.register name owner none none nowUnix
        (buildQuote s label years nowUnix).expiryUnix
        (buildQuote s label years nowUnix).gracePeriodEndsAt) w = .ok w') :
      Change out self env s w s' w' (.register label owner years maxPrice nowUnix)
  /-- `renew` or `extend_during_grace` -/
  | renewal {c : Call} {name : Bytes} {caller : Address} {years paymentStroops nowUnix : UInt64}
      {record : RegistrationRecord}
      (h : Renewal out self env s w s' w' name caller years paymentStroops nowUnix record)
      (hcall : c = .renew name caller years paymentStroops nowUnix ∨
        c = .extendDuringGrace name caller years paymentStroops nowUnix) :
      Change out self env s w s' w' c

/-- Reserving a label writes to the list of them only. -/
theorem addReserved_storage (s : State) (label : Bytes) :
    ∃ r, addReserved s label = { s with reserved := r } := by
  unfold addReserved
  split
  · exact ⟨s.reserved, rfl⟩
  · exact ⟨_, rfl⟩

/-- `load_reserved_manifest` touches the reserved labels only. -/
theorem loadReserved_storage (s : State) (k : UInt32) (labels : List Bytes) :
    ∃ r, (loadReserved s k labels).1 = { s with reserved := r } := by
  induction labels generalizing s k with
  | nil => exact ⟨s.reserved, rfl⟩
  | cons label labels ih =>
      unfold loadReserved
      cases validateLabelSoroban label with
      | error _ => exact ih s k
      | ok _ =>
          obtain ⟨r, hr⟩ := ih (addReserved s label)
            (if (s.reserved label).getD false then k else k + 1)
          obtain ⟨r', hr'⟩ := addReserved_storage s label
          refine ⟨r, hr.trans ?_⟩
          rw [hr']

/-- A change of the reserved labels, the grace period or the version is quiet. -/
theorem Change.of_settings {c : Call} (reserved : Store Bytes Bool) (grace : Option UInt64)
    (version : Option UInt32) (hcall : c.isSale = false) :
    Change out self env s w
      { s with reserved := reserved, gracePeriodSeconds := grace, contractVersion := version } w c := by
  refine .quiet rfl rfl ?_ ?_ ?_ hcall rfl
  · intro registry hregistry
    exact hregistry
  · intro _
    rfl
  · intro a _ hlisted
    exact hlisted

/-- **What an administrative call writes**, and what it asked for where that matters later. -/
inductive Administration (env : Env) (s : State) : State → Call → Prop
  | initializeContract {registry admin : Address} (hnone : s.registry = none) :
      Administration env s { s with
        registry           := some registry
        admin              := some admin
        contractVersion    := some XlmNs.contractVersion
        rateLimitConfig    := some (getRateLimitConfig s)
        gracePeriodSeconds := some (getGracePeriodSeconds s) } (.initializeContract registry admin)
  | upgrade {data : Bytes} :
      Administration env s { s with contractVersion := some (decodeTargetVersion data) } (.upgrade data)
  | reserveLabel {label : Bytes} (hvalid : validateLabelSoroban label = .ok ()) :
      Administration env s (addReserved s label) (.reserveLabel label)
  | loadReservedManifest {labels : List Bytes} :
      Administration env s (loadReserved s 0 labels).1 (.loadReservedManifest labels)
  | setRateLimitConfig {size max : UInt64} :
      Administration env s { s with rateLimitConfig := some ⟨size, max⟩ } (.setRateLimitConfig size max)
  | setGracePeriod {seconds : UInt64} (hbounds : minGracePeriodSeconds ≤ seconds ∧ seconds ≤ maxGracePeriodSeconds) :
      Administration env s { s with gracePeriodSeconds := some seconds } (.setGracePeriod seconds)
  | whitelistAddress {address : Address} :
      Administration env s { s with whitelistedAddress := s.whitelistedAddress.set address true }
        (.whitelistAddress address)
  | removeWhitelistAddress {address : Address} :
      Administration env s { s with whitelistedAddress := s.whitelistedAddress.remove address }
        (.removeWhitelistAddress address)

/-- A call that sells nothing is an administrative one, and the world stays as it is. -/
theorem step_administration {c : Call} (h : step out self (s, w) ⟨env, c⟩ = .ok (s', w')) (hquiet : c.isSale = false) :
    Administration env s s' c ∧ w' = w := by
  cases c with
  | register | renew | extendDuringGrace => cases hquiet
  | initializeContract registry admin =>
      simp only [step, initializeContract, bind_eq_ok, require_eq_ok, pure_eq_ok, Prod.mk.injEq, exists_const] at h
      obtain ⟨_, ⟨hnone, rfl⟩, rfl, rfl⟩ := h
      exact ⟨.initializeContract hnone, rfl⟩
  | upgrade data =>
      simp only [step, upgrade, upgradeStoring_eq_ok, bind_eq_ok, pure_eq_ok, Prod.mk.injEq] at h
      obtain ⟨_, ⟨_, rfl⟩, rfl, rfl⟩ := h
      exact ⟨.upgrade, rfl⟩
  | reserveLabel label =>
      simp only [step, reserveLabel, bind_eq_ok, mapErr_eq_ok, pure_eq_ok, Prod.mk.injEq] at h
      obtain ⟨_, ⟨_, _, _, hvalid, rfl⟩, rfl, rfl⟩ := h
      exact ⟨.reserveLabel hvalid, rfl⟩
  | loadReservedManifest labels =>
      simp only [step, loadReservedManifest, bind_eq_ok, pure_eq_ok, Prod.mk.injEq] at h
      obtain ⟨_, ⟨_, _, rfl⟩, rfl, rfl⟩ := h
      exact ⟨.loadReservedManifest, rfl⟩
  | setRateLimitConfig size max =>
      simp only [step, setRateLimitConfig, bind_eq_ok, pure_eq_ok, Prod.mk.injEq] at h
      obtain ⟨_, ⟨_, _, rfl⟩, rfl, rfl⟩ := h
      exact ⟨.setRateLimitConfig, rfl⟩
  | setGracePeriod seconds =>
      simp only [step, setGracePeriod, bind_eq_ok, require_eq_ok, pure_eq_ok, Prod.mk.injEq] at h
      obtain ⟨_, ⟨_, _, _, hbounds, rfl⟩, rfl, rfl⟩ := h
      exact ⟨.setGracePeriod hbounds, rfl⟩
  | whitelistAddress address =>
      simp only [step, whitelistAddress, bind_eq_ok, pure_eq_ok, Prod.mk.injEq] at h
      obtain ⟨_, ⟨_, _, rfl⟩, rfl, rfl⟩ := h
      exact ⟨.whitelistAddress, rfl⟩
  | removeWhitelistAddress address =>
      simp only [step, removeWhitelistAddress, bind_eq_ok, pure_eq_ok, Prod.mk.injEq] at h
      obtain ⟨_, ⟨_, _, rfl⟩, rfl, rfl⟩ := h
      exact ⟨.removeWhitelistAddress, rfl⟩

/-- An administrative call is a change of its kind. -/
theorem Administration.change {c : Call} (h : Administration env s s' c) : Change out self env s w s' w c := by
  cases h with
  | initializeContract hnone =>
      refine .quiet rfl rfl ?_ (fun _ => rfl) (fun _ _ h => h) rfl rfl
      -- `initialize` runs once: there is no registry yet
      intro r hr
      cases hnone.symm.trans hr
  | upgrade => exact .of_settings s.reserved s.gracePeriodSeconds _ rfl
  | @reserveLabel label _ =>
      obtain ⟨reserved, hadd⟩ := addReserved_storage s label
      rw [hadd]
      exact .of_settings reserved s.gracePeriodSeconds s.contractVersion rfl
  | @loadReservedManifest labels =>
      obtain ⟨reserved, hload⟩ := loadReserved_storage s 0 labels
      rw [hload]
      exact .of_settings reserved s.gracePeriodSeconds s.contractVersion rfl
  | @setRateLimitConfig size max =>
      exact .quiet rfl rfl (fun _ h => h) (fun hne => absurd rfl (hne size max)) (fun _ _ h => h) rfl rfl
  | setGracePeriod _ => exact .of_settings s.reserved _ s.contractVersion rfl
  | @whitelistAddress address =>
      refine .quiet rfl rfl (fun _ h => h) (fun _ => rfl) ?_ rfl rfl
      intro a hne hlisted
      have ha : a ≠ address := by
        intro heq
        exact hne (by rw [heq])
      simpa [isWhitelisted, Store.set_ne _ _ ha] using hlisted
  | @removeWhitelistAddress address =>
      refine .quiet rfl rfl (fun _ h => h) (fun _ => rfl) ?_ rfl rfl
      intro a _ hlisted
      by_cases ha : a = address
      · subst ha
        simp [isWhitelisted] at hlisted
      · simpa [isWhitelisted, Store.remove_ne _ ha] using hlisted

/-- **Every committed invocation is a `Change`.** -/
theorem step_change {t : Tx Call} (h : step out self (s, w) t = .ok (s', w')) :
    Change out self t.env s w s' w' t.call := by
  obtain ⟨env, c⟩ := t
  cases c with
  | register label owner years maxPrice nowUnix =>
      obtain ⟨ha, _, _, hy, _, hl, _, name, hn, he, hs, hc⟩ := register_eq_ok.mp h
      exact .register ha hl hy hn he hs hc
  | renew name caller years payment nowUnix =>
      obtain ⟨record, hr⟩ := renew_ok h
      exact .renewal hr (Or.inl rfl)
  | extendDuringGrace name caller years payment nowUnix =>
      obtain ⟨record, hr⟩ := extendDuringGrace_ok h
      exact .renewal hr (Or.inr rfl)
  | _ =>
      obtain ⟨hadministration, rfl⟩ := step_administration h rfl
      exact hadministration.change

/-- **What an administrative call leaves**: treasury and counters, and a grace period that is as it was or within its
    bounds. -/
structure Administers (s s' : State) : Prop where
  metrics : feeMetrics s' = feeMetrics s
  grace   : getGracePeriodSeconds s' = getGracePeriodSeconds s ∨
    minGracePeriodSeconds ≤ getGracePeriodSeconds s' ∧ getGracePeriodSeconds s' ≤ maxGracePeriodSeconds

/-- It leaves what is sold. -/
theorem step_administers {t : Tx Call} (h : step out self (s, w) t = .ok (s', w')) (hquiet : t.call.isSale = false) :
    Administers s s' := by
  obtain ⟨env, c⟩ := t
  obtain ⟨hadministration, _⟩ := step_administration h hquiet
  cases hadministration with
  | @reserveLabel label _ =>
      obtain ⟨reserved, hadd⟩ := addReserved_storage s label
      rw [hadd]
      exact ⟨rfl, Or.inl rfl⟩
  | @loadReservedManifest labels =>
      obtain ⟨reserved, hload⟩ := loadReserved_storage s 0 labels
      rw [hload]
      exact ⟨rfl, Or.inl rfl⟩
  -- the one call that checks the bounds it keeps
  | setGracePeriod hbounds => exact ⟨rfl, Or.inr hbounds⟩
  | initializeContract | upgrade | setRateLimitConfig | whitelistAddress | removeWhitelistAddress =>
      exact ⟨rfl, Or.inl rfl⟩

/-! ## The registry call of a sale -/

/-- The registry call a sale makes, if its name and its record are what they should be. -/
def Call.nested (s : State) : Call → Option RegistryCall
  | .register label owner years _ nowUnix =>
      (buildXlmName label).toOption.map (fun name =>
        .register name owner none none nowUnix (buildQuote s label years nowUnix).expiryUnix
          (buildQuote s label years nowUnix).gracePeriodEndsAt)
  | .renew name caller years _ nowUnix | .extendDuringGrace name caller years _ nowUnix =>
      (s.registration name).map (fun record =>
        .renew name caller (expiryFromNow (baseTime record nowUnix) years)
          (computeGracePeriodEndsAt s (expiryFromNow (baseTime record nowUnix) years)) nowUnix)
  | _ => none

/-- A registry that accepts every call. -/
def accepting : Outside Unit where
  registry _ _ _ _ := some ()

theorem callRegistry_accepting {call : RegistryCall} :
    callRegistry accepting self env s call () = .ok () ↔ ∃ registry, s.registry = some registry := by
  rw [callRegistry_eq_ok]
  exact exists_congr (fun _ => and_iff_left rfl)

/-- What some registry accepts, the accepting one does. -/
theorem callRegistry_accepted {call : RegistryCall} (h : callRegistry out self env s call w = .ok w') :
    callRegistry accepting self env s call () = .ok () := by
  obtain ⟨registry, hregistry, _⟩ := callRegistry_eq_ok.mp h
  exact callRegistry_accepting.mpr ⟨registry, hregistry⟩

/-- **A sale commits iff it passes the registrar's own checks and the registry accepts the call.** -/
theorem sale_eq_ok {c : Call} (hsale : c.isSale = true) :
    step out self (s, w) ⟨env, c⟩ = .ok (s', w') ↔
      step accepting self (s, ()) ⟨env, c⟩ = .ok (s', ()) ∧
      ∃ call, c.nested s = some call ∧ callRegistry out self env s call w = .ok w' := by
  cases c with
  | register label owner years maxPrice nowUnix =>
      have hnested : ∀ name, buildXlmName label = .ok name →
          Call.nested s (.register label owner years maxPrice nowUnix)
            = some (.register name owner none none nowUnix (buildQuote s label years nowUnix).expiryUnix
                (buildQuote s label years nowUnix).gracePeriodEndsAt) := by
        intro name hname
        rw [Call.nested, hname]
        rfl
      show register out self env s w label owner years maxPrice nowUnix = _ ↔
        register accepting self env s () label owner years maxPrice nowUnix = _ ∧ _
      constructor
      · intro h
        obtain ⟨ha, hv, hq, hy, hr, hl, hf, name, hn, he, hs, hc⟩ := register_eq_ok.mp h
        exact ⟨register_eq_ok.mpr ⟨ha, hv, hq, hy, hr, hl, hf, name, hn, he, hs, callRegistry_accepted hc⟩,
          _, hnested name hn, hc⟩
      · rintro ⟨h, call, hcall, hc⟩
        obtain ⟨ha, hv, hq, hy, hr, hl, hf, name, hn, he, hs, _⟩ := register_eq_ok.mp h
        obtain rfl := Option.some.inj ((hnested name hn).symm.trans hcall)
        exact register_eq_ok.mpr ⟨ha, hv, hq, hy, hr, hl, hf, name, hn, he, hs, hc⟩
  | renew name caller years payment nowUnix =>
      show renew out self env s w name caller years payment nowUnix = _ ↔
        renew accepting self env s () name caller years payment nowUnix = _ ∧ _
      constructor
      · intro h
        obtain ⟨ha, label, hlabel, hy, record, hr, ho, hopen, hp, hs, hc⟩ := renew_eq_ok.mp h
        exact ⟨renew_eq_ok.mpr ⟨ha, label, hlabel, hy, record, hr, ho, hopen, hp, hs, callRegistry_accepted hc⟩,
          _, congrArg (Option.map _) hr, hc⟩
      · rintro ⟨h, call, hcall, hc⟩
        obtain ⟨ha, label, hlabel, hy, record, hr, ho, hopen, hp, hs, _⟩ := renew_eq_ok.mp h
        obtain rfl := Option.some.inj ((congrArg (Option.map _) hr).symm.trans hcall)
        exact renew_eq_ok.mpr ⟨ha, label, hlabel, hy, record, hr, ho, hopen, hp, hs, hc⟩
  | extendDuringGrace name caller years payment nowUnix =>
      show extendDuringGrace out self env s w name caller years payment nowUnix = _ ↔
        extendDuringGrace accepting self env s () name caller years payment nowUnix = _ ∧ _
      constructor
      · intro h
        obtain ⟨ha, label, hlabel, hy, record, hr, ho, hx, hopen, hp, hs, hc⟩ := extendDuringGrace_eq_ok.mp h
        exact ⟨extendDuringGrace_eq_ok.mpr
          ⟨ha, label, hlabel, hy, record, hr, ho, hx, hopen, hp, hs, callRegistry_accepted hc⟩,
          _, congrArg (Option.map _) hr, hc⟩
      · rintro ⟨h, call, hcall, hc⟩
        obtain ⟨ha, label, hlabel, hy, record, hr, ho, hx, hopen, hp, hs, _⟩ := extendDuringGrace_eq_ok.mp h
        obtain rfl := Option.some.inj ((congrArg (Option.map _) hr).symm.trans hcall)
        exact extendDuringGrace_eq_ok.mpr ⟨ha, label, hlabel, hy, record, hr, ho, hx, hopen, hp, hs, hc⟩
  | _ => cases hsale

end XlmNs.Registrar
