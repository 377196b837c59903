import XlmNs.Registry.Steps

/-!
# `Registry.NftCalls` — what the registry asks of the NFT contract

`register`, `transfer`, `renew` and `burn` do the registry's own work and then call the NFT contract, if one is
configured. `step_linked_iff` splits such an invocation in two: what the registry does alone (`unlinked`), and the
calls it then makes (`Call.nested`), one after the other.
-/

namespace XlmNs.Registry

open Soroban

variable {ω : Type} {out : Outside ω} {self : Address} {env : Env} {s s' : State} {w w' : ω} {nft : Address}

/-- The registry without an NFT contract. -/
def unlinked (s : State) : State := { s with nftContract := none }

/-- The calls that are passed on to the NFT contract. -/
def Call.isPassedOn : Call → Bool
  | .register .. | .transfer .. | .renew .. | .burn .. => true
  | _ => false

/-- An old entry takes its token with it. -/
def releaseCalls (s : State) (name : Bytes) : List NftCall :=
  if s.entry name = none then [] else [.burn name]

/-- What is passed on, in order. -/
def Call.nested (s : State) : Call → List NftCall
  | .register name owner _ metadataUri _ expiresAt _ =>
      releaseCalls s name ++ [.mint name owner metadataUri expiresAt]
  | .transfer name _ newOwner _   => [.syncOwner name newOwner]
  | .renew name _ expiresAt _ _   => [.syncExpiry name expiresAt]
  | .burn name _ _                => [.burn name]
  | _                             => []

/-- The world after a list of calls to the NFT contract. -/
def callsNft (out : Outside ω) (env : Env) (nft : Address) (calls : List NftCall) (w : ω) : Option ω :=
  calls.foldlM (fun w call => out.nft env nft call w) w

theorem callsNft_nil : callsNft out env nft [] w = some w := rfl

theorem callsNft_one {call : NftCall} : callsNft out env nft [call] w = out.nft env nft call w := by
  simp [callsNft]

theorem callsNft_append_eq_some {calls more : List NftCall} :
    callsNft out env nft (calls ++ more) w = some w' ↔
      ∃ w₁, callsNft out env nft calls w = some w₁ ∧ callsNft out env nft more w₁ = some w' := by
  unfold callsNft
  rw [List.foldlM_append]
  exact Option.bind_eq_some_iff

theorem releaseCalls_of_none {name : Bytes} (h : s.entry name = none) : releaseCalls s name = [] := if_pos h

theorem releaseCalls_of_some {name : Bytes} {e : RegistryEntry} (h : s.entry name = some e) :
    releaseCalls s name = [.burn name] := by
  apply if_neg
  rw [h]
  exact Option.some_ne_none e

theorem callNft_linked (hlink : s.nftContract = some nft) {call : NftCall} :
    callNft out self env s call w = .ok w' ↔ out.nft (env.callFrom self) nft call w = some w' := by
  simp only [callNft, hlink, invoke_eq_ok]

theorem callNft_unlinked (hlink : s.nftContract = none) {call : NftCall} :
    callNft out self env s call w = .ok w' ↔ w = w' := by
  simp only [callNft, hlink, pure_eq_ok]

/-- The other calls talk to nobody. -/
theorem world_of_notPassedOn {c : Call} (hc : c.isPassedOn = false)
    (h : step out self (s, w) ⟨env, c⟩ = .ok (s', w')) : w' = w := by
  cases c with
  | register | transfer | renew | burn => cases hc
  | _ =>
      simp only [step, bind_eq_ok, pure_eq_ok, Prod.mk.injEq] at h
      obtain ⟨_, _, _, rfl⟩ := h
      rfl

/-! ## The registry's part and the calls -/

/-- Releasing an entry, with its call split off. -/
theorem release_linked_iff (hlink : s.nftContract = some nft) {name : Bytes} {nowUnix : UInt64} :
    release out self env (removeLock s name) w name nowUnix = .ok (s', w') ↔
      ∃ s₁, release out self env (removeLock (unlinked s) name) w name nowUnix = .ok (s₁, w) ∧
        s' = { s₁ with nftContract := s.nftContract } ∧
        callsNft out (env.callFrom self) nft (releaseCalls s name) w = some w' := by
  rw [release_eq_ok]
  constructor
  · rintro (⟨he, rfl, rfl⟩ | ⟨e, he, h1, h2, rfl, hburn⟩)
    · refine ⟨_, release_eq_ok.mpr (Or.inl ⟨he, rfl, rfl⟩), rfl, ?_⟩
      rw [releaseCalls_of_none (s := s) he]
      rfl
    · have hnone : (removeLock (unlinked s) name).nftContract = none := rfl
      refine ⟨_, release_eq_ok.mpr (Or.inr ⟨e, he, h1, h2, rfl, (callNft_unlinked hnone).mpr rfl⟩), rfl, ?_⟩
      rw [releaseCalls_of_some (s := s) he, callsNft_one]
      exact (callNft_linked hlink).mp hburn
  · rintro ⟨_, hr, rfl, hcalls⟩
    rcases release_eq_ok.mp hr with ⟨he, rfl, _⟩ | ⟨e, he, h1, h2, rfl, _⟩
    · rw [releaseCalls_of_none (s := s) he] at hcalls
      exact Or.inl ⟨he, rfl, (Option.some.inj hcalls).symm⟩
    · rw [releaseCalls_of_some (s := s) he, callsNft_one] at hcalls
      exact Or.inr ⟨e, he, h1, h2, rfl, (callNft_linked hlink).mpr hcalls⟩

/-- On its own, the registry calls nobody to release an entry. -/
theorem release_unlinked {name : Bytes} {nowUnix : UInt64}
    (h : release out self env (removeLock (unlinked s) name) w name nowUnix = .ok (s', w')) :
    w' = w ∧ s'.nftContract = none := by
  rcases release_eq_ok.mp h with ⟨_, rfl, rfl⟩ | ⟨_, _, _, _, rfl, hcall⟩
  · exact ⟨rfl, rfl⟩
  · exact ⟨((callNft_unlinked rfl).mp hcall).symm, rfl⟩

/-- Nor to register a name. -/
theorem register_unlinked_world {name : Bytes} {owner : Address} {targetAddress metadataUri : Option Bytes}
    {nowUnix expiresAt gracePeriodEndsAt : UInt64}
    (h : step out self (unlinked s, w)
      ⟨env, .register name owner targetAddress metadataUri nowUnix expiresAt gracePeriodEndsAt⟩
        = .ok (s', w')) : w' = w := by
  obtain ⟨_, _, _, _, _, _, s₁, w₁, hr, _, hmint⟩ := register_eq_ok.mp h
  obtain ⟨rfl, hlink⟩ := release_unlinked (s := s) hr
  exact ((callNft_unlinked hlink).mp hmint).symm

/-- **A linked invocation**: the registry's own work, then its calls. -/
theorem step_linked_iff (hlink : s.nftContract = some nft) {c : Call} (hc : c.isPassedOn = true) :
    step out self (s, w) ⟨env, c⟩ = .ok (s', w') ↔
      ∃ s₁ w₁, step out self (unlinked s, w) ⟨env, c⟩ = .ok (s₁, w₁) ∧
        s' = { s₁ with nftContract := s.nftContract } ∧
        callsNft out (env.callFrom self) nft (c.nested s) w₁ = some w' := by
  have halone : ∀ (call : NftCall) (w w' : ω),
      callNft out self env (unlinked s) call w = .ok w' ↔ w = w' := fun _ _ _ => callNft_unlinked rfl
  cases c with
  | register name owner targetAddress metadataUri nowUnix expiresAt gracePeriodEndsAt =>
      simp only [step, register_eq_ok, Call.nested, callsNft_append_eq_some, callsNft_one,
        release_linked_iff hlink]
      constructor
      · -- the burn of the old token comes before the mint, the storage writes in between concern nobody else
        rintro ⟨ha, hv, hl, hm, h1, h2, _, w₁, ⟨s₁, hr, rfl, hburn⟩, rfl, hmint⟩
        refine ⟨_, w, ⟨ha, hv, hl, hm, h1, h2, s₁, w, hr, rfl, ?_⟩, rfl, w₁, hburn, ?_⟩
        · exact (callNft_unlinked (release_unlinked hr).2).mpr rfl
        · exact (callNft_linked hlink).mp hmint
      · rintro ⟨_, w₁, ⟨ha, hv, hl, hm, h1, h2, s₁, w₂, hr, rfl, hnone⟩, rfl, w₃, hburn, hmint⟩
        obtain ⟨rfl, hlink₁⟩ := release_unlinked hr
        obtain rfl := (callNft_unlinked hlink₁).mp hnone
        refine ⟨ha, hv, hl, hm, h1, h2, _, w₃, ⟨s₁, hr, rfl, hburn⟩, rfl, ?_⟩
        exact (callNft_linked hlink).mpr hmint
  | transfer name caller newOwner nowUnix =>
      simp only [step, transfer_eq_ok, Call.nested, callsNft_one, callNft_linked hlink, halone]
      -- the resolver is called in both, the NFT contract after it
      constructor
      · rintro ⟨ha, hl, e, he, h1, h2, rfl, w₁, hr, hsync⟩
        exact ⟨_, w₁, ⟨ha, hl, e, he, h1, h2, rfl, w₁, hr, rfl⟩, rfl, hsync⟩
      · rintro ⟨_, _, ⟨ha, hl, e, he, h1, h2, rfl, w₁, hr, rfl⟩, rfl, hsync⟩
        exact ⟨ha, hl, e, he, h1, h2, rfl, w₁, hr, hsync⟩
  | renew name caller expiresAt gracePeriodEndsAt nowUnix =>
      simp only [step, renew_eq_ok, Call.nested, callsNft_one, callNft_linked hlink, halone]
      constructor
      · rintro ⟨ha, hl, e, he, h1, h2, h3, h4, h5, h6, rfl, hsync⟩
        exact ⟨_, w, ⟨ha, hl, e, he, h1, h2, h3, h4, h5, h6, rfl, rfl⟩, rfl, hsync⟩
      · rintro ⟨_, _, ⟨ha, hl, e, he, h1, h2, h3, h4, h5, h6, rfl, rfl⟩, rfl, hsync⟩
        exact ⟨ha, hl, e, he, h1, h2, h3, h4, h5, h6, rfl, hsync⟩
  | burn name caller nowUnix =>
      simp only [step, burn_eq_ok, Call.nested, callsNft_one, callNft_linked hlink, halone]
      constructor
      · rintro ⟨ha, hl, e, he, h1, rfl, hburn⟩
        exact ⟨_, w, ⟨ha, hl, e, he, h1, rfl, rfl⟩, rfl, hburn⟩
      · rintro ⟨_, _, ⟨ha, hl, e, he, h1, rfl, rfl⟩, rfl, hburn⟩
        exact ⟨ha, hl, e, he, h1, rfl, hburn⟩
  | _ => cases hc

/-! ## The link -/

theorem Rewrites.nftContract {name : Bytes} {caller : Address} {nowUnix : UInt64}
    (h : Rewrites env s s' name caller nowUnix) : s'.nftContract = s.nftContract := by
  obtain ⟨_, _, _, _, _, _, _, _, _, _, _, _, rfl⟩ := h
  rfl

/-- **Only `set_nft_contract` changes the link** to the NFT contract. -/
theorem step_nftContract {t : Tx Call} (h : step out self (s, w) t = .ok (s', w'))
    (hc : ∀ nftContract, t.call ≠ .setNftContract nftContract) : s'.nftContract = s.nftContract := by
  obtain ⟨env, c⟩ := t
  cases c with
  | setNftContract nft => exact absurd rfl (hc nft)
  | initializeContract admin =>
      simp only [step, initializeContract, bind_eq_ok, pure_eq_ok, Prod.mk.injEq] at h
      obtain ⟨_, ⟨_, _, rfl⟩, rfl, _⟩ := h
      rfl
  | setDisputeAdmin admin =>
      simp only [step, setDisputeAdmin, bind_eq_ok, pure_eq_ok, Prod.mk.injEq] at h
      obtain ⟨_, ⟨_, _, _, _, rfl⟩, rfl, _⟩ := h
      rfl
  | upgrade data =>
      simp only [step, upgrade, upgradeStoring_eq_ok, bind_eq_ok, pure_eq_ok, Prod.mk.injEq] at h
      obtain ⟨_, ⟨_, rfl⟩, rfl, _⟩ := h
      rfl
  | register name owner targetAddress metadataUri nowUnix expiresAt gracePeriodEndsAt =>
      obtain ⟨_, _, _, _, _, _, s₁, w₁, hr, rfl, _⟩ := register_eq_ok.mp h
      exact (release_spec hr).2.2.1
  | transfer name caller newOwner nowUnix =>
      obtain ⟨_, _, _, _, _, _, rfl, _⟩ := transfer_eq_ok.mp h
      rfl
  | setResolver name caller resolver nowUnix =>
      simp only [step, bind_eq_ok, pure_eq_ok, Prod.mk.injEq] at h
      obtain ⟨_, h, rfl, _⟩ := h
      exact (setResolver_ok h).nftContract
  | setTargetAddress name caller targetAddress nowUnix =>
      simp only [step, bind_eq_ok, pure_eq_ok, Prod.mk.injEq] at h
      obtain ⟨_, h, rfl, _⟩ := h
      exact (setTargetAddress_ok h).nftContract
  | setMetadata name caller metadataUri nowUnix =>
      simp only [step, bind_eq_ok, pure_eq_ok, Prod.mk.injEq] at h
      obtain ⟨_, h, rfl, _⟩ := h
      exact (setMetadata_ok h).nftContract
  | updateOwner name caller newOwner =>
      simp only [step, bind_eq_ok, pure_eq_ok, Prod.mk.injEq] at h
      obtain ⟨_, h, rfl, _⟩ := h
      obtain ⟨_, _, _, _, _, _, rfl⟩ := updateOwner_eq_ok.mp h
      rfl
  | renew name caller expiresAt gracePeriodEndsAt nowUnix =>
      obtain ⟨_, _, _, _, _, _, _, _, _, _, rfl, _⟩ := renew_eq_ok.mp h
      rfl
  | burn name caller nowUnix =>
      obtain ⟨_, _, _, _, _, rfl, _⟩ := burn_eq_ok.mp h
      rfl
  | lockName name caller lockedUntil lockReason nowUnix =>
      simp only [step, lockName, bind_eq_ok, pure_eq_ok, Prod.mk.injEq] at h
      obtain ⟨_, ⟨_, _, _, _, _, _, _, _, _, _, _, _, rfl⟩, rfl, _⟩ := h
      rfl
  | unlockName name caller =>
      simp only [step, unlockName, bind_eq_ok, pure_eq_ok, Prod.mk.injEq] at h
      obtain ⟨_, ⟨_, _, _, _, _, _, _, _, _, _, rfl⟩, rfl, _⟩ := h
      rfl

end XlmNs.Registry
