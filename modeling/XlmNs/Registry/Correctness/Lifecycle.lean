import XlmNs.Registry.Correctness.OwnerIndex
import XlmNs.Registry.NftCalls

/-!
# `Registry.Correctness.Lifecycle` — one lifecycle, read off the stored bounds everywhere

Every entrypoint derives the phase of a name (`NameState`) from the two stored bounds on its own, with its own
comparisons in its own order. They agree because the bounds are ordered in every reachable state
(`EntryValid.ordered`): `ViewsAgree` says which phases each entrypoint accepts a name in, and `lifecycle` that it
holds of every reachable state at every time.

## Contents
- `Change.bounds`, `bounds_kept`: the bounds of an entry only move forward until it is burned or claimed.
- `ViewsAgree`, one lemma for each entrypoint, all by way of the three `nameState_…_iff`.
- `lifecycle`: whole runs from a fresh deployment.
-/

namespace XlmNs.Registry

open Soroban

variable {ω : Type} {out : Outside ω} {self : Address} {env : Env} {s s' : State} {w w' : ω}
variable {n : Bytes} {e : RegistryEntry} {now : UInt64}

/-! ## Bounds along a run -/

/-- The name a call burns or registers (again). -/
def Call.releases : Call → Option Bytes
  | .register name _ _ _ _ _ _ => some name
  | .burn name _ _              => some name
  | _                           => none

/-- The entry has not been shortened. -/
def Prolonged (e e' : RegistryEntry) : Prop :=
  e.expiresAt ≤ e'.expiresAt ∧ e.gracePeriodEndsAt ≤ e'.gracePeriodEndsAt

theorem Prolonged.refl (e : RegistryEntry) : Prolonged e e := ⟨UInt64.le_refl _, UInt64.le_refl _⟩

theorem Prolonged.trans {e₁ e₂ e₃ : RegistryEntry} (h : Prolonged e₁ e₂) (h' : Prolonged e₂ e₃) :
    Prolonged e₁ e₃ :=
  ⟨UInt64.le_trans h.1 h'.1, UInt64.le_trans h.2 h'.2⟩

/-- One entry is rewritten without being shortened: every entry is still there, none shorter. -/
theorem prolonged_set {name : Bytes} {old new : RegistryEntry} (hold : s.entry name = some old)
    (hnew : Prolonged old new) (he : s.entry n = some e) :
    ∃ e', s.entry.set name new n = some e' ∧ Prolonged e e' := by
  by_cases hn : n = name
  · subst hn
    obtain rfl := Option.some.inj (he.symm.trans hold)
    exact ⟨new, Store.set_self _ _ _, hnew⟩
  · exact ⟨e, (Store.set_ne _ _ hn).trans he, .refl e⟩

/-- **A change that neither burns nor registers a name shortens none of its bounds.** -/
theorem Change.bounds {c : Call} (h : Change env s s' c) (he : s.entry n = some e)
    (hc : c.releases ≠ some n) : ∃ e', s'.entry n = some e' ∧ Prolonged e e' := by
  cases h with
  | frame _ hentry _ =>
      rw [hentry]
      exact ⟨e, he, .refl e⟩
  | rewrite _ hold _ _ _ _ hexp hgrace hentry _ =>
      rw [hentry]
      refine prolonged_set hold ?_ he
      constructor
      · rw [hexp]
        exact UInt64.le_refl _
      · rw [hgrace]
        exact UInt64.le_refl _
  | renew hold _ _ _ hexp hgrace _ hentry _ =>
      rw [hentry]
      exact prolonged_set hold ⟨hexp, hgrace⟩ he
  | move hold _ _ hentry _ =>
      rw [hentry]
      exact prolonged_set hold (.refl _) he
  | @burn name _ _ _ _ _ _ hentry _ =>
      -- a burn or a registration of another name
      have hn : n ≠ name := by
        rintro rfl
        exact hc rfl
      exact ⟨e, by rw [hentry, Store.remove_ne _ hn]; exact he, .refl e⟩
  | @register name _ _ _ _ _ _ _ _ _ _ _ hentry _ =>
      have hn : n ≠ name := by
        rintro rfl
        exact hc rfl
      exact ⟨e, by rw [hentry, Store.set_ne _ _ hn]; exact he, .refl e⟩

/-- The transaction burns the name or registers it again. -/
def Releases (out : Outside ω) (self : Address) (n : Bytes) (sw : State × ω) (t : Tx Call) : Prop :=
  t.call.releases = some n ∧ ∃ sw', step out self sw t = .ok sw'

/-- **The bounds of an entry move forward only**, along any run that neither burns nor reclaims its name. -/
theorem bounds_kept {sw : State × ω} (he : sw.1.entry n = some e) {us : List (Tx Call)}
    (hkept : Along (step out self) (fun sw t => ¬ Releases out self n sw t) sw us) :
    ∃ e', (run (step out self) sw us).1.entry n = some e' ∧ Prolonged e e' := by
  -- the invariant of the run: the entry is there, with bounds no smaller than at its start
  refine Along.run_invariant (fun sw => ∃ e', sw.1.entry n = some e' ∧ Prolonged e e') ?_ ⟨e, he, .refl e⟩ hkept
  rintro ⟨s, w⟩ t ⟨e₁, he₁, h₁⟩ hnot
  apply exec_of_ok (P := fun sw : State × ω => ∃ e', sw.1.entry n = some e' ∧ Prolonged e e') ⟨e₁, he₁, h₁⟩
  rintro ⟨s', w'⟩ hok
  obtain ⟨e₂, he₂, h₂⟩ := (step_change hok).bounds he₁ (fun hc => hnot ⟨hc, _, hok⟩)
  exact ⟨e₂, he₂, h₁.trans h₂⟩

/-! ## The phase of a name -/

/-- A name is missing without an entry. -/
theorem nameState_missing_iff : nameState s n now = .missing ↔ s.entry n = none := by
  unfold nameState
  cases s.entry n with
  | none => simp
  | some e =>
      simp only [reduceCtorEq, iff_false]
      split
      · simp
      · split <;> simp

/-- It is active until its entry expires. -/
theorem nameState_active_iff : nameState s n now = .active ↔ ∃ e, s.entry n = some e ∧ e.isActiveAt now := by
  unfold nameState
  cases s.entry n with
  | none => simp
  | some e =>
      by_cases ha : e.isActiveAt now
      · simp [ha]
      · by_cases hc : e.isClaimableAt now
        · simp [ha, hc]
        · simp [ha, hc]

/-- With the bounds in order, whatever is past the grace period is past the expiry. -/
theorem not_active_of_claimable (hordered : e.expiresAt ≤ e.gracePeriodEndsAt) (hc : e.isClaimableAt now) :
    ¬ e.isActiveAt now := by
  intro ha
  exact UInt64.lt_irrefl _ (UInt64.lt_of_lt_of_le (UInt64.lt_of_le_of_lt hordered hc) ha)

/-- It is claimable after the grace period of its entry. -/
theorem nameState_claimable_iff (hs : Consistent s) :
    nameState s n now = .claimable ↔ ∃ e, s.entry n = some e ∧ e.isClaimableAt now := by
  unfold nameState
  cases he : s.entry n with
  | none => simp
  | some e =>
      have hordered := (hs.entry n e he).ordered
      -- `name_state` asks for Active first, which ordered bounds exclude
      by_cases hc : e.isClaimableAt now
      · simp [hc, not_active_of_claimable hordered hc]
      · simp only [Option.some.injEq, exists_eq_left', hc, iff_false, if_false]
        split <;> simp

/-- A name that is there and not claimable is active or in its grace period. -/
theorem nameState_open_iff (hs : Consistent s) (he : s.entry n = some e) :
    nameState s n now = .active ∨ nameState s n now = .gracePeriod ↔ ¬ e.isClaimableAt now := by
  have hmissing : nameState s n now ≠ .missing := by
    rw [Ne, nameState_missing_iff, he]
    exact Option.some_ne_none e
  have hclaimable : nameState s n now = .claimable ↔ e.isClaimableAt now := by
    rw [nameState_claimable_iff hs, he]
    simp
  rw [← hclaimable]
  cases hstate : nameState s n now with
  | missing => exact absurd hstate hmissing
  | active => simp
  | gracePeriod => simp
  | claimable => simp

/-! ## What each entrypoint makes of the phase -/

/-- No lock on the name, and no NFT contract that could refuse. -/
def Undisturbed (s : State) (n : Bytes) (now : UInt64) : Prop := UnlockedAt s n now ∧ s.nftContract = none

/-- `e` is the entry of `n`, its owner signed, and nothing but the lifecycle stands in the way. -/
structure OwnerCalls (env : Env) (s : State) (n : Bytes) (e : RegistryEntry) (now : UInt64) : Prop where
  entry  : s.entry n = some e
  signed : env.Authorises e.owner
  free   : Undisturbed s n now

/-- **Each entrypoint accepts a name in the phases it should**, at the time `now`. -/
structure ViewsAgree (out : Outside ω) (self : Address) (env : Env) (s : State) (w : ω) (n : Bytes)
    (now : UInt64) : Prop where
  /-- `resolve`: Active -/
  resolve : (∃ e, resolve s n now = .ok e) ↔ nameState s n now = .active
  /-- the check the owner's calls make first: Active -/
  owner : ∀ e, s.entry n = some e → (ensureOwner e e.owner now = .ok () ↔ nameState s n now = .active)
  /-- `transfer` by the owner: Active, if the resolver of the entry plays along -/
  transfer : ∀ e newOwner, OwnerCalls env s n e now →
    ((∃ r, transfer out self env s w n e.owner newOwner now = .ok r) ↔
      nameState s n now = .active ∧ ∃ w', callResolver out self env e n w = .ok w')
  /-- `set_resolver` by the owner: Active, if the resolver is an address -/
  setResolver : ∀ e resolver, OwnerCalls env s n e now →
    ((∃ r, setResolver out env s n e.owner resolver now = .ok r) ↔
      nameState s n now = .active ∧ ∀ id ∈ resolver, ∃ a, out.addressFromString id = some a)
  /-- `set_target_address` by the owner: Active -/
  setTargetAddress : ∀ e target, OwnerCalls env s n e now →
    ((∃ r, setTargetAddress env s n e.owner target now = .ok r) ↔ nameState s n now = .active)
  /-- `set_metadata` by the owner: Active, if the URI is not too long -/
  setMetadata : ∀ e uri, OwnerCalls env s n e now →
    ((∃ r, setMetadata env s n e.owner uri now = .ok r) ↔
      nameState s n now = .active ∧ ∀ value ∈ uri, value.length ≤ maxMetadataUriLength)
  /-- `renew` by the owner, to bounds that are not smaller and valid at `now`: Active or in grace -/
  renew : ∀ e expiresAt gracePeriodEndsAt, OwnerCalls env s n e now →
    e.expiresAt ≤ expiresAt → e.gracePeriodEndsAt ≤ gracePeriodEndsAt →
    now ≤ expiresAt → expiresAt ≤ gracePeriodEndsAt →
    ((∃ r, renew out self env s w n e.owner expiresAt gracePeriodEndsAt now = .ok r) ↔
      nameState s n now = .active ∨ nameState s n now = .gracePeriod)
  /-- `burn` by somebody else: Claimable -/
  burn : ∀ e caller, s.entry n = some e → e.owner ≠ caller → env.Authorises caller → Undisturbed s n now →
    ((∃ r, burn out self env s w n caller now = .ok r) ↔ nameState s n now = .claimable)
  /-- `register` with valid arguments: Missing or Claimable -/
  register : ∀ owner target uri expiresAt gracePeriodEndsAt, env.Authorises owner → Undisturbed s n now →
    validateFqdnSoroban n = .ok () → (∀ value ∈ uri, value.length ≤ maxMetadataUriLength) →
    now ≤ expiresAt → expiresAt ≤ gracePeriodEndsAt →
    ((∃ r, register out self env s w n owner target uri now expiresAt gracePeriodEndsAt = .ok r) ↔
      nameState s n now = .missing ∨ nameState s n now = .claimable)

/-- What resolves is active. -/
theorem resolve_iff_active (hs : Consistent s) :
    (∃ e, resolve s n now = .ok e) ↔ nameState s n now = .active := by
  rw [nameState_active_iff]
  constructor
  · rintro ⟨e, h⟩
    exact ⟨e, (resolve_eq_ok.mp h).2⟩
  · rintro ⟨e, he, ha⟩
    exact ⟨e, resolve_eq_ok.mpr ⟨(hs.entry n e he).fqdn, he, ha⟩⟩

theorem active_iff (he : s.entry n = some e) : nameState s n now = .active ↔ e.isActiveAt now := by
  rw [nameState_active_iff, he]
  simp

/-- The owner passes the check of his calls while the name is active. -/
theorem ensureOwner_iff_active (he : s.entry n = some e) :
    ensureOwner e e.owner now = .ok () ↔ nameState s n now = .active := by
  rw [ensureOwner_eq_ok, active_iff he, and_iff_left rfl]

theorem OwnerCalls.transfer_iff (h : OwnerCalls env s n e now) (newOwner : Address) :
    (∃ r, transfer out self env s w n e.owner newOwner now = .ok r) ↔
      nameState s n now = .active ∧ ∃ w', callResolver out self env e n w = .ok w' := by
  rw [active_iff h.entry]
  constructor
  · rintro ⟨⟨s', w'⟩, hok⟩
    obtain ⟨_, _, e', he', ha, _, _, w₁, hresolver, _⟩ := transfer_eq_ok.mp hok
    obtain rfl := Option.some.inj (h.entry.symm.trans he')
    exact ⟨ha, w₁, hresolver⟩
  · rintro ⟨ha, w₁, hresolver⟩
    exact ⟨(_, w₁), transfer_eq_ok.mpr ⟨h.signed, h.free.1, e, h.entry, ha, rfl, rfl, w₁, hresolver,
      (callNft_unlinked h.free.2).mpr rfl⟩⟩

/-- The checks the three setters share, passed. -/
theorem OwnerCalls.checks (h : OwnerCalls env s n e now) (ha : e.isActiveAt now) :
    requireAuth env e.owner = (.ok () : Result Unit) ∧ ensureNameUnlocked s n now = .ok (removeLock s n) ∧
      getEntry (removeLock s n) n = .ok e ∧ ensureOwner e e.owner now = .ok () :=
  ⟨requireAuth_eq_ok.mpr h.signed, ensureNameUnlocked_eq_ok.mpr ⟨h.free.1, rfl⟩, getEntry_eq_ok.mpr h.entry,
    ensureOwner_eq_ok.mpr ⟨ha, rfl⟩⟩

/-- An entry is rewritten while it is active. -/
theorem Rewrites.active {caller : Address} (h : Rewrites env s s' n caller now) :
    nameState s n now = .active := by
  obtain ⟨_, _, e, _, he, ha, _⟩ := h
  exact (active_iff he).mpr ha

theorem OwnerCalls.setResolver_iff (h : OwnerCalls env s n e now) (resolver : Option Bytes) :
    (∃ r, setResolver out env s n e.owner resolver now = .ok r) ↔
      nameState s n now = .active ∧ ∀ id ∈ resolver, ∃ a, out.addressFromString id = some a := by
  constructor
  · rintro ⟨s', hok⟩
    refine ⟨(setResolver_ok hok).active, ?_⟩
    rintro id rfl
    simp only [setResolver, bind_eq_ok, invoke_eq_ok] at hok
    obtain ⟨_, _, _, _, _, _, _, _, a, ha, _⟩ := hok
    exact ⟨a, ha⟩
  · rintro ⟨hactive, hparse⟩
    obtain ⟨h1, h2, h3, h4⟩ := h.checks ((active_iff h.entry).mp hactive)
    -- only a resolver that is set is parsed
    cases resolver with
    | none =>
        refine ⟨putEntry (removeLock s n) n { e with resolver := none }, ?_⟩
        simp only [setResolver, bind_eq_ok]
        exact ⟨(), h1, _, h2, e, h3, (), h4, rfl⟩
    | some id =>
        obtain ⟨a, ha⟩ := hparse id rfl
        refine ⟨putEntry (removeLock s n) n { e with resolver := some id }, ?_⟩
        simp only [setResolver, bind_eq_ok]
        exact ⟨(), h1, _, h2, e, h3, (), h4, a, invoke_eq_ok.mpr ha, rfl⟩

theorem OwnerCalls.setTargetAddress_iff (h : OwnerCalls env s n e now) (target : Option Bytes) :
    (∃ r, setTargetAddress env s n e.owner target now = .ok r) ↔ nameState s n now = .active := by
  constructor
  · rintro ⟨s', hok⟩
    exact (setTargetAddress_ok hok).active
  · intro hactive
    obtain ⟨h1, h2, h3, h4⟩ := h.checks ((active_iff h.entry).mp hactive)
    refine ⟨putEntry (removeLock s n) n { e with targetAddress := target }, ?_⟩
    simp only [setTargetAddress, bind_eq_ok]
    exact ⟨(), h1, _, h2, e, h3, (), h4, rfl⟩

theorem OwnerCalls.setMetadata_iff (h : OwnerCalls env s n e now) (uri : Option Bytes) :
    (∃ r, setMetadata env s n e.owner uri now = .ok r) ↔
      nameState s n now = .active ∧ ∀ value ∈ uri, value.length ≤ maxMetadataUriLength := by
  constructor
  · rintro ⟨s', hok⟩
    refine ⟨(setMetadata_ok hok).active, ?_⟩
    simp only [setMetadata, bind_eq_ok, validateMetadata_eq_ok] at hok
    obtain ⟨_, _, _, _, _, huri, _⟩ := hok
    exact huri
  · rintro ⟨hactive, huri⟩
    obtain ⟨h1, h2, h3, h4⟩ := h.checks ((active_iff h.entry).mp hactive)
    refine ⟨putEntry (removeLock s n) n { e with metadataUri := uri }, ?_⟩
    simp only [setMetadata, bind_eq_ok]
    exact ⟨(), h1, _, h2, (), validateMetadata_eq_ok.mpr huri, e, h3, (), h4, rfl⟩

theorem OwnerCalls.renew_iff (h : OwnerCalls env s n e now) (hs : Consistent s)
    {expiresAt gracePeriodEndsAt : UInt64} (hexp : e.expiresAt ≤ expiresAt)
    (hgrace : e.gracePeriodEndsAt ≤ gracePeriodEndsAt) (hnow : now ≤ expiresAt)
    (hlife : expiresAt ≤ gracePeriodEndsAt) :
    (∃ r, renew out self env s w n e.owner expiresAt gracePeriodEndsAt now = .ok r) ↔
      nameState s n now = .active ∨ nameState s n now = .gracePeriod := by
  rw [nameState_open_iff hs h.entry]
  constructor
  · rintro ⟨⟨s', w'⟩, hok⟩
    obtain ⟨_, _, e', he', hopen, _⟩ := renew_eq_ok.mp hok
    obtain rfl := Option.some.inj (h.entry.symm.trans he')
    exact hopen
  · intro hopen
    exact ⟨(_, w), renew_eq_ok.mpr ⟨h.signed, h.free.1, e, h.entry, hopen, rfl, hexp, hgrace, hnow, hlife, rfl,
      (callNft_unlinked h.free.2).mpr rfl⟩⟩

/-- A stranger may burn what is claimable. -/
theorem burn_iff_claimable (hs : Consistent s) (he : s.entry n = some e) {caller : Address}
    (hother : e.owner ≠ caller) (hauth : env.Authorises caller) (hfree : Undisturbed s n now) :
    (∃ r, burn out self env s w n caller now = .ok r) ↔ nameState s n now = .claimable := by
  rw [nameState_claimable_iff hs]
  constructor
  · rintro ⟨⟨s', w'⟩, hok⟩
    obtain ⟨_, _, e', he', hclaim, _⟩ := burn_eq_ok.mp hok
    -- the caller is not the owner, so the other reason to let them burn must hold
    obtain rfl := Option.some.inj (he.symm.trans he')
    exact ⟨e, he, hclaim.resolve_left hother⟩
  · rintro ⟨e', he', hclaim⟩
    exact ⟨(_, w), burn_eq_ok.mpr ⟨hauth, hfree.1, e', he', Or.inr hclaim, rfl,
      (callNft_unlinked hfree.2).mpr rfl⟩⟩

/-- What is missing or claimable may be registered. -/
theorem register_iff_free (hs : Consistent s) {owner : Address} {target uri : Option Bytes}
    {expiresAt gracePeriodEndsAt : UInt64} (hauth : env.Authorises owner) (hfree : Undisturbed s n now)
    (hvalid : validateFqdnSoroban n = .ok ()) (huri : ∀ value ∈ uri, value.length ≤ maxMetadataUriLength)
    (hnow : now ≤ expiresAt) (hlife : expiresAt ≤ gracePeriodEndsAt) :
    (∃ r, register out self env s w n owner target uri now expiresAt gracePeriodEndsAt = .ok r) ↔
      nameState s n now = .missing ∨ nameState s n now = .claimable := by
  rw [nameState_missing_iff, nameState_claimable_iff hs]
  constructor
  · rintro ⟨⟨s', w'⟩, hok⟩
    obtain ⟨_, _, _, _, _, _, s₁, w₁, hrelease, _⟩ := register_eq_ok.mp hok
    obtain ⟨_, _, _, hclaim⟩ := release_spec hrelease
    cases he : s.entry n with
    | none => exact Or.inl rfl
    | some e => exact Or.inr ⟨e, rfl, hclaim e he⟩
  · -- what `release` leaves has no NFT contract either
    have hrest : (∃ s₁, release out self env (removeLock s n) w n now = .ok (s₁, w) ∧ s₁.nftContract = none) →
        ∃ r, register out self env s w n owner target uri now expiresAt gracePeriodEndsAt = .ok r := by
      rintro ⟨s₁, hrelease, hnft⟩
      exact ⟨(_, w), register_eq_ok.mpr ⟨hauth, hvalid, hfree.1, huri, hnow, hlife, s₁, w, hrelease, rfl,
        (callNft_unlinked hnft).mpr rfl⟩⟩
    rintro (he | ⟨e, he, hclaim⟩)
    · exact hrest ⟨_, release_eq_ok.mpr (Or.inl ⟨he, rfl, rfl⟩), hfree.2⟩
    · have hinactive := not_active_of_claimable (hs.entry n e he).ordered hclaim
      exact hrest ⟨_, release_eq_ok.mpr (Or.inr ⟨e, he, hinactive, hclaim, rfl,
        (callNft_unlinked hfree.2).mpr rfl⟩), hfree.2⟩

/-- In a consistent registry the views agree. -/
theorem Consistent.viewsAgree (hs : Consistent s) (out : Outside ω) (self : Address) (env : Env) (w : ω)
    (n : Bytes) (now : UInt64) : ViewsAgree out self env s w n now where
  resolve := resolve_iff_active hs
  owner := fun _ he => ensureOwner_iff_active he
  transfer := fun _ newOwner h => h.transfer_iff newOwner
  setResolver := fun _ resolver h => h.setResolver_iff resolver
  setTargetAddress := fun _ target h => h.setTargetAddress_iff target
  setMetadata := fun _ uri h => h.setMetadata_iff uri
  renew := fun _ _ _ h hexp hgrace hnow hlife => h.renew_iff hs hexp hgrace hnow hlife
  burn := fun _ _ he hother hauth hfree => burn_iff_claimable hs he hother hauth hfree
  register := fun _ _ _ _ _ hauth hfree hvalid huri hnow hlife =>
    register_iff_free hs hauth hfree hvalid huri hnow hlife

/-- **The registry's lifecycle.** After any run from a fresh deployment: the bounds of every entry are ordered;
    along any further run that neither burns nor reclaims the name they only move forward; and at every time, in
    any environment, all entrypoints agree on the phase of every name. -/
theorem lifecycle (out : Outside ω) (self : Address) (w : ω) (ts : List (Tx Call)) :
    let sw := after out self w ts
    (∀ n e, sw.1.entry n = some e → e.registeredAt ≤ e.expiresAt ∧ e.expiresAt ≤ e.gracePeriodEndsAt) ∧
    (∀ n e us, sw.1.entry n = some e →
      Along (step out self) (fun sw t => ¬ Releases out self n sw t) sw us →
      ∃ e', (run (step out self) sw us).1.entry n = some e' ∧
        e.expiresAt ≤ e'.expiresAt ∧ e.gracePeriodEndsAt ≤ e'.gracePeriodEndsAt) ∧
    ∀ env n now, ViewsAgree out self env sw.1 sw.2 n now := by
  intro sw
  have hs : Consistent sw.1 := after_consistent out self w ts
  refine ⟨?_, ?_, ?_⟩
  · intro n e he
    exact ⟨(hs.entry n e he).started, (hs.entry n e he).ordered⟩
  · intro n e us he hkept
    exact bounds_kept he hkept
  · intro env n now
    exact hs.viewsAgree out self env sw.2 n now

end XlmNs.Registry
