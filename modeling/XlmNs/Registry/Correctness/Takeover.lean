import XlmNs.Registry.Correctness.OwnerIndex

/-!
# `Registry.Correctness.Takeover` — when a registered name can leave its owner

The release policy: before the grace period of a name has run out on the ledger clock, only its owner (or the
configured NFT contract) can take the name away. `TakeoverSafe` states that for one invocation.

`register` and `burn` decide claimability on the `now_unix` argument, not on the ledger clock, so anyone can
claim a live name by passing a late enough time (`ClaimsEarly`). That is the only way the policy breaks:
`takeover_safe_iff` says a run is takeover-safe at every step iff none of its steps claims early.

## Contents
- `Change.entry_kept`: an unauthorised change leaves an entry alone, or claims it by argument.
- `keepsOwner_iff`: one step, exactly.
- `unauthorised_run_keeps_entry`: whole runs, from any consistent state.
- `takeover_safe_iff`, and a run in which a live name changes hands.
-/

namespace XlmNs.Registry

open Soroban

variable {ω : Type} {out : Outside ω} {self : Address} {env : Env} {s s' : State} {w : ω}
variable {n : Bytes} {e : RegistryEntry} {t : Tx Call}

/-! ## The policy and the way around it -/

/-- Neither authorised by the entry's owner nor made by the configured NFT contract. -/
def Unauthorised (env : Env) (s : State) (e : RegistryEntry) : Prop :=
  ¬ env.Authorises e.owner ∧ ¬ ByNft env s

/-- After the invocation, `n` still has an entry of the same owner. -/
def KeepsOwner (out : Outside ω) (self : Address) (sw : State × ω) (t : Tx Call) (n : Bytes)
    (e : RegistryEntry) : Prop :=
  ∃ e', (exec (step out self) sw t).1.entry n = some e' ∧ e'.owner = e.owner

/-- **Takeover safety of one invocation.** No name still protected at the ledger time changes owner or
    loses its entry without the owner's (or the NFT contract's) authority. -/
def TakeoverSafe (out : Outside ω) (self : Address) (sw : State × ω) (t : Tx Call) : Prop :=
  ∀ n e, sw.1.entry n = some e → t.env.timestamp ≤ e.gracePeriodEndsAt →
    Unauthorised t.env sw.1 e → KeepsOwner out self sw t n e

/-- The invocation claims `n` with a `now_unix` past the grace period of its entry `e`, and gives neither
    `register`'s nor `burn`'s other checks, nor the NFT contract, a reason to refuse. -/
def ClaimsEarly (out : Outside ω) (self : Address) (sw : State × ω) (t : Tx Call) (n : Bytes)
    (e : RegistryEntry) : Prop :=
  match t.call with
  | .register name owner _ metadataUri nowUnix expiresAt gracePeriodEndsAt =>
      name = n ∧ e.isClaimableAt nowUnix ∧ t.env.Authorises owner ∧ UnlockedAt sw.1 n nowUnix ∧
      (∀ value ∈ metadataUri, value.length ≤ maxMetadataUriLength) ∧
      nowUnix ≤ expiresAt ∧ expiresAt ≤ gracePeriodEndsAt ∧
      ∃ w₁ w₂, callNft out self t.env sw.1 (.burn n) sw.2 = .ok w₁ ∧
        callNft out self t.env sw.1 (.mint n owner metadataUri expiresAt) w₁ = .ok w₂
  | .burn name caller nowUnix =>
      name = n ∧ e.isClaimableAt nowUnix ∧ t.env.Authorises caller ∧ UnlockedAt sw.1 n nowUnix ∧
      ∃ w₁, callNft out self t.env sw.1 (.burn n) sw.2 = .ok w₁
  | _ => False

/-- No name still protected at the ledger time is claimed early by somebody without authority over it. -/
def NoEarlyClaim (out : Outside ω) (self : Address) (sw : State × ω) (t : Tx Call) : Prop :=
  ∀ n e, sw.1.entry n = some e → t.env.timestamp ≤ e.gracePeriodEndsAt →
    Unauthorised t.env sw.1 e → ¬ ClaimsEarly out self sw t n e

/-! ## One step -/

/-- `c` is a `register` or `burn` of `n` at `nowUnix`. -/
def Claims (c : Call) (n : Bytes) (nowUnix : UInt64) : Prop :=
  match c with
  | .register name _ _ _ now _ _ => name = n ∧ now = nowUnix
  | .burn name _ now             => name = n ∧ now = nowUnix
  | _                            => False

/-- **An unauthorised change leaves an entry exactly as it was, or claims it.** -/
theorem Change.entry_kept {c : Call} (hc : Change env s s' c) (he : s.entry n = some e)
    (hu : Unauthorised env s e) :
    s'.entry n = some e ∨ ∃ nowUnix, Claims c n nowUnix ∧ e.isClaimableAt nowUnix := by
  cases hc with
  | frame _ hentry _ =>
      rw [← hentry] at he
      exact Or.inl he
  | @rewrite _ name e₁ e₂ _ he₁ hauth _ _ _ _ _ hentry _ =>
      by_cases hn : n = name
      · subst hn
        obtain rfl : e₁ = e := Option.some.inj (he₁.symm.trans he)
        exact absurd hauth hu.1
      · exact Or.inl (by rw [hentry, Store.set_ne _ _ hn]; exact he)
  | @renew name caller _ _ _ e₁ he₁ howner hauth _ _ _ _ hentry _ =>
      by_cases hn : n = name
      · subst hn
        obtain rfl : e₁ = e := Option.some.inj (he₁.symm.trans he)
        exact absurd (howner ▸ hauth) hu.1
      · exact Or.inl (by rw [hentry, Store.set_ne _ _ hn]; exact he)
  | @move _ name _ e₁ he₁ hauth _ hentry _ =>
      by_cases hn : n = name
      · subst hn
        obtain rfl : e₁ = e := Option.some.inj (he₁.symm.trans he)
        rcases hauth with h | h
        · exact absurd h hu.1
        · exact absurd h hu.2
      · exact Or.inl (by rw [hentry, Store.set_ne _ _ hn]; exact he)
  | @burn name caller nowUnix e₁ he₁ hauth hclaim hentry _ =>
      by_cases hn : n = name
      · subst hn
        obtain rfl : e₁ = e := Option.some.inj (he₁.symm.trans he)
        rcases hclaim with h | h
        · exact absurd (h ▸ hauth) hu.1
        · exact Or.inr ⟨nowUnix, ⟨rfl, rfl⟩, h⟩
      · exact Or.inl (by rw [hentry, Store.remove_ne _ hn]; exact he)
  | @register name _ _ _ nowUnix _ _ _ _ _ _ hclaim hentry _ =>
      by_cases hn : n = name
      · subst hn
        exact Or.inr ⟨nowUnix, ⟨rfl, rfl⟩, hclaim e he⟩
      · exact Or.inl (by rw [hentry, Store.set_ne _ _ hn]; exact he)

/-- A committed claim at a late `now_unix` passed every other check. -/
theorem claimsEarly_of_ok {sw' : State × ω} {nowUnix : UInt64} (h : step out self (s, w) t = .ok sw')
    (he : s.entry n = some e) (hc : Claims t.call n nowUnix) (hlate : e.isClaimableAt nowUnix) :
    ClaimsEarly out self (s, w) t n e := by
  obtain ⟨env, c⟩ := t
  obtain ⟨s', w'⟩ := sw'
  cases c with
  | register name owner ta uri now exp grace =>
      obtain ⟨rfl, rfl⟩ := hc
      obtain ⟨ha, _, hl, hm, h1, h2, s₁, w₁, hr, _, hmint⟩ := register_eq_ok.mp h
      refine ⟨rfl, hlate, ha, hl, hm, h1, h2, w₁, w', ?_, ?_⟩
      · rcases release_eq_ok.mp hr with ⟨hnone, _, _⟩ | ⟨_, _, _, _, _, hburn⟩
        · cases he.symm.trans hnone
        · exact hburn
      · rw [callNft_congr (release_spec hr).2.2.1] at hmint
        exact hmint
  | burn name caller now =>
      obtain ⟨rfl, rfl⟩ := hc
      obtain ⟨ha, hl, _, _, _, _, hburn⟩ := burn_eq_ok.mp h
      exact ⟨rfl, hlate, ha, hl, w', hburn⟩
  | _ => exact hc.elim

/-- An early claim by somebody else goes through, and the owner is gone. -/
theorem not_keepsOwner_of_claimsEarly (hs : Consistent s) (he : s.entry n = some e)
    (hu : Unauthorised t.env s e) (hc : ClaimsEarly out self (s, w) t n e) :
    ¬ KeepsOwner out self (s, w) t n e := by
  obtain ⟨env, c⟩ := t
  have hv := hs.entry n e he
  rintro ⟨e', he', ho⟩
  cases c with
  | register name owner ta uri now exp grace =>
      obtain ⟨rfl, hlate, ha, hl, hm, h1, h2, w₁, w₂, hburn, hmint⟩ := hc
      -- ordered bounds: a claimable name is not active, so `release` lets it go
      have hactive : ¬ e.isActiveAt now := by
        intro hact
        have hle : now ≤ e.gracePeriodEndsAt := UInt64.le_trans hact hv.ordered
        exact UInt64.lt_irrefl _ (UInt64.lt_of_le_of_lt hle hlate)
      have hrel : release out self env (removeLock s name) w name now
          = .ok (removeEntry (removeOwnerName (removeLock s name) e.owner name) name, w₁) :=
        release_eq_ok.mpr (Or.inr ⟨e, he, hactive, hlate, rfl, hburn⟩)
      have hok : step out self (s, w) ⟨env, .register name owner ta uri now exp grace⟩ = .ok (_, w₂) :=
        register_eq_ok.mpr ⟨ha, hv.fqdn, hl, hm, h1, h2, _, _, hrel, rfl, hmint⟩
      rw [exec_ok hok] at he'
      have hfresh : some (freshEntry name owner ta uri now exp grace) = some e' := by
        rw [← he']; exact (Store.set_self _ _ _).symm
      obtain rfl := Option.some.inj hfresh
      have howner : owner = e.owner := ho
      exact hu.1 (howner ▸ ha)
  | burn name caller now =>
      obtain ⟨rfl, hlate, ha, hl, w₁, hburn⟩ := hc
      have hok : step out self (s, w) ⟨env, .burn name caller now⟩ = .ok (_, w₁) :=
        burn_eq_ok.mpr ⟨ha, hl, e, he, Or.inr hlate, rfl, hburn⟩
      rw [exec_ok hok] at he'
      have hgone : (none : Option RegistryEntry) = some e' := by
        rw [← he']; exact (Store.remove_self _ _).symm
      cases hgone
  | _ => exact hc

/-- An unauthorised invocation that claims nothing early leaves the entry exactly as it was. -/
theorem exec_entry_kept (he : s.entry n = some e) (hu : Unauthorised t.env s e)
    (hc : ¬ ClaimsEarly out self (s, w) t n e) :
    (exec (step out self) (s, w) t).1.entry n = some e := by
  refine exec_of_ok (P := fun sw : State × ω => sw.1.entry n = some e) he ?_
  rintro ⟨s', w'⟩ hok
  rcases (step_change hok).entry_kept he hu with h | ⟨now, hclaims, hlate⟩
  · exact h
  · exact absurd (claimsEarly_of_ok hok he hclaims hlate) hc

/-- **One step, exactly.** An unauthorised invocation keeps the owner iff it does not claim early. -/
theorem keepsOwner_iff (hs : Consistent s) (he : s.entry n = some e) (hu : Unauthorised t.env s e) :
    KeepsOwner out self (s, w) t n e ↔ ¬ ClaimsEarly out self (s, w) t n e := by
  constructor
  · intro hk hc
    exact not_keepsOwner_of_claimsEarly hs he hu hc hk
  · intro hc
    exact ⟨e, exec_entry_kept he hu hc, rfl⟩

/-! ## Whole runs -/

/-- **Nobody else can touch an entry over a whole run.** From a consistent state, as long as no step carries
    authority over `e` and none claims it early, the entry stays exactly as it was. -/
theorem unauthorised_run_keeps_entry {sw : State × ω} (hs : Consistent sw.1)
    (he : sw.1.entry n = some e) {us : List (Tx Call)}
    (hus : Along (step out self) (fun sw t => Unauthorised t.env sw.1 e ∧
      ¬ ClaimsEarly out self sw t n e) sw us) :
    (run (step out self) sw us).1.entry n = some e := by
  have hinv : Consistent (run (step out self) sw us).1 ∧
      (run (step out self) sw us).1.entry n = some e := by
    refine Along.run_invariant (fun sw => Consistent sw.1 ∧ sw.1.entry n = some e) ?_
      ⟨hs, he⟩ hus
    rintro sw t ⟨hs, he⟩ ⟨hu, hc⟩
    exact ⟨(preserves_consistent out self).exec hs t, exec_entry_kept he hu hc⟩
  exact hinv.2

/-- **The release policy holds along a run iff no step of it claims a name early.** -/
theorem takeover_safe_iff (out : Outside ω) (self : Address) (w : ω) (ts : List (Tx Call)) :
    Along (step out self) (TakeoverSafe out self) (State.empty, w) ts ↔
      Along (step out self) (NoEarlyClaim out self) (State.empty, w) ts := by
  have hstep : ∀ sw t, Consistent (sw : State × ω).1 →
      (TakeoverSafe out self sw t ↔ NoEarlyClaim out self sw t) := by
    intro sw t hs
    constructor
    · intro hsafe n e he hlive hu
      exact (keepsOwner_iff hs he hu).mp (hsafe n e he hlive hu)
    · intro hearly n e he hlive hu
      exact (keepsOwner_iff hs he hu).mpr (hearly n e he hlive hu)
  have hall := along_of_invariant (preserves_consistent out self) hstep ts
    (s := (State.empty, w)) consistent_empty
  exact along_congr hall

/-! ## A live name changes hands -/

namespace EarlyClaim

open Cast

/-- At time 1000 Alice registers her name for a year plus 30 days of grace. One second later Mallory
    registers the same name, passing a `now_unix` just past Alice's grace period. -/
def earlyRun : List (Tx Call) :=
  [⟨⟨1000, [alice], none⟩, .register aliceXlm alice none none 1000 31537000 34129000⟩,
   ⟨⟨1001, [mallory], none⟩, .register aliceXlm mallory none none 34129001 65665001 68257001⟩]

/-- **The release policy fails on the code**: Mallory holds Alice's name a second after she registered it. -/
theorem early_register_takes_name :
    ¬ Along (step nothingOutside registry) (TakeoverSafe nothingOutside registry)
      (State.empty, ()) earlyRun := by
  intro h
  have hsafe := along_split (earlyRun.take 1) [] h
  obtain ⟨e', he', ho⟩ := hsafe aliceXlm
    (freshEntry aliceXlm alice none none 1000 31537000 34129000) (by decide) (by decide)
    ⟨by decide, by rintro ⟨nft, hn, _⟩; cases hn⟩
  have hnow : (run (step nothingOutside registry) (State.empty, ()) earlyRun).1.entry aliceXlm
      = some (freshEntry aliceXlm mallory none none 34129001 65665001 68257001) := by decide
  obtain rfl := Option.some.inj (hnow.symm.trans he')
  exact absurd ho (by decide)

end EarlyClaim

end XlmNs.Registry
