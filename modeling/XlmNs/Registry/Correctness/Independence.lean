import XlmNs.Registry.NftCalls
import XlmNs.Soroban.Commuting

/-!
# `Registry.Correctness.Independence` — two registrations of different names to different owners

Without an NFT contract a registration asks for its own lock and its own entry (`Registrable`) and rewrites them and
two positions of the owner index (`registered`): the name leaves the list of its last owner and enters that of the new
one. A registration of another name to another owner sees none of it, whoever the last owners were, and the index ends
the same in both orders (`registered_comm`).
-/

namespace XlmNs.Registry

open Soroban

variable {ω : Type} {out : Outside ω} {self : Address} {env : Env} {s s' : State} {w w' : ω}
variable {name name' : Bytes} {e e' : RegistryEntry} {owner : Address} {nowUnix expiresAt gracePeriodEndsAt : UInt64}

/-- What `register` asks for, a registration without metadata. -/
structure Registrable (env : Env) (s : State) (name : Bytes) (owner : Address)
    (nowUnix expiresAt gracePeriodEndsAt : UInt64) : Prop where
  authorised : env.Authorises owner
  valid      : validateFqdnSoroban name = .ok ()
  unlocked   : UnlockedAt s name nowUnix
  lifecycle  : nowUnix ≤ expiresAt ∧ expiresAt ≤ gracePeriodEndsAt
  free       : ∀ existing, s.entry name = some existing →
                 ¬ existing.isActiveAt nowUnix ∧ existing.isClaimableAt nowUnix

/-- The storage after a registration. -/
def registered (s : State) (name : Bytes) (entry : RegistryEntry) : State :=
  { s with
    entry      := s.entry.set name entry
    lock       := s.lock.remove name
    ownerNames := (releasedIndex s name).push entry.owner name }

/-- Without an NFT contract the release of a claimable name cannot fail. -/
theorem release_without_nft (hnft : s.nftContract = none) {s₁ : State} {w₁ : ω} :
    release out self env (removeLock s name) w name nowUnix = .ok (s₁, w₁) ↔
      (∀ existing, s.entry name = some existing → ¬ existing.isActiveAt nowUnix ∧ existing.isClaimableAt nowUnix) ∧
        s₁ = { s with
          entry := s.entry.remove name, lock := s.lock.remove name, ownerNames := releasedIndex s name } ∧ w₁ = w := by
  have hcall : ∀ call : NftCall, callNft out self env (removeLock s name) call w = .ok w :=
    fun _ => (callNft_unlinked hnft).mpr rfl
  rw [release_eq_ok, hcall]
  cases he : s.entry name with
  | none =>
      have hentry : (removeLock s name).entry name = none := he
      have hsame : removeLock s name = { s with
          entry := s.entry.remove name, lock := s.lock.remove name, ownerNames := releasedIndex s name } := by
        unfold releasedIndex
        rw [he, Store.remove_absent he]
        rfl
      rw [hentry, ← hsame]
      simp
  | some existing =>
      have hentry : (removeLock s name).entry name = some existing := he
      have hsame : removeEntry (removeOwnerName (removeLock s name) existing.owner name) name = { s with
          entry := s.entry.remove name, lock := s.lock.remove name, ownerNames := releasedIndex s name } := by
        unfold releasedIndex
        rw [he]
        rfl
      rw [hentry, ← hsame]
      simp [and_assoc, eq_comm]

/-- **A registration without an NFT contract** succeeds iff its own checks pass, and changes nothing outside. -/
theorem register_without_nft (hnft : s.nftContract = none) :
    register out self env s w name owner none none nowUnix expiresAt gracePeriodEndsAt = .ok (s', w') ↔
      Registrable env s name owner nowUnix expiresAt gracePeriodEndsAt ∧
        s' = registered s name (freshEntry name owner none none nowUnix expiresAt gracePeriodEndsAt) ∧ w' = w := by
  have huri : ∀ value ∈ (none : Option Bytes), value.length ≤ maxMetadataUriLength := by
    rintro value ⟨⟩
  rw [register_eq_ok]
  constructor
  · rintro ⟨hauth, hvalid, hlock, _, hnow, hlife, s₁, w₁, hrelease, rfl, hmint⟩
    obtain ⟨hfree, rfl, rfl⟩ := (release_without_nft hnft).mp hrelease
    have hsame := (callNft_unlinked (by exact hnft)).mp hmint
    refine ⟨⟨hauth, hvalid, hlock, ⟨hnow, hlife⟩, hfree⟩, ?_, hsame.symm⟩
    simp only [addOwnerName, putEntry, registered, Store.set_remove]
    rfl
  · rintro ⟨h, rfl, rfl⟩
    refine ⟨h.authorised, h.valid, h.unlocked, huri, h.lifecycle.1, h.lifecycle.2, _, _,
      (release_without_nft hnft).mpr ⟨h.free, rfl, rfl⟩, ?_, (callNft_unlinked hnft).mpr rfl⟩
    simp only [addOwnerName, putEntry, registered, Store.set_remove]
    rfl

/-! ## What a registration of another name to another owner leaves alone -/

theorem entry_registered (hn : name' ≠ name) : (registered s name e).entry name' = s.entry name' :=
  Store.set_ne _ _ hn

theorem lock_registered (hn : name' ≠ name) : (registered s name e).lock name' = s.lock name' :=
  Store.remove_ne _ hn

/-- **The checks do not see it.** -/
theorem registrable_registered (hn : name' ≠ name) :
    Registrable env (registered s name e) name' owner nowUnix expiresAt gracePeriodEndsAt ↔
      Registrable env s name' owner nowUnix expiresAt gracePeriodEndsAt := by
  have hlock : UnlockedAt (registered s name e) name' nowUnix ↔ UnlockedAt s name' nowUnix := by
    unfold UnlockedAt
    rw [lock_registered hn]
  constructor
  · intro h
    have hfree := h.free
    rw [entry_registered hn] at hfree
    exact ⟨h.authorised, h.valid, hlock.mp h.unlocked, h.lifecycle, hfree⟩
  · intro h
    have hfree := h.free
    rw [← entry_registered (s := s) (e := e) hn] at hfree
    exact ⟨h.authorised, h.valid, hlock.mpr h.unlocked, h.lifecycle, hfree⟩

/-- Taking a name off the list of its last owner, as a function of the index. -/
def releaseFrom (previous : Option RegistryEntry) (name : Bytes) (idx : Index Address Bytes) : Index Address Bytes :=
  match previous with
  | some existing => idx.filterOut existing.owner name
  | none          => idx

theorem releasedIndex_eq (s : State) (name : Bytes) : releasedIndex s name = releaseFrom (s.entry name) name s.ownerNames := by
  unfold releasedIndex releaseFrom
  rfl

/-- The index work of two registrations. -/
theorem index_comm {owner' : Address} (hn : name ≠ name') (ho : owner ≠ owner') (previous previous' : Option RegistryEntry) :
    Function.Commute ((fun idx : Index Address Bytes => idx.push owner name) ∘ releaseFrom previous name)
      ((fun idx => idx.push owner' name') ∘ releaseFrom previous' name') := by
  have hrelease : Function.Commute (releaseFrom previous name) (releaseFrom previous' name') := by
    cases previous with
    | none => exact Function.Commute.id_left
    | some old =>
        cases previous' with
        | none => exact Function.Commute.id_right
        | some old' => exact Index.filterOut_comm old.owner old'.owner name name'
  have hpush : ∀ {o : Address} {n n' : Bytes} (previous : Option RegistryEntry), n ≠ n' →
      Function.Commute (fun idx : Index Address Bytes => idx.push o n) (releaseFrom previous n') := by
    intro o n n' previous hne
    cases previous with
    | none => exact Function.Commute.id_right
    | some old => exact Index.push_filterOut_comm o old.owner hne
  exact ((Index.push_comm name name' ho).comp_right (hpush previous' hn)).comp_left
    ((hpush previous hn.symm).symm.comp_right hrelease)

/-- **The writes commute with it**, whoever the last owners were. -/
theorem registered_comm (hn : name ≠ name') (ho : e.owner ≠ e'.owner) :
    registered (registered s name e) name' e' = registered (registered s name' e') name e := by
  have hindex := index_comm hn ho (s.entry name) (s.entry name') s.ownerNames
  unfold registered
  rw [releasedIndex_eq, releasedIndex_eq, releasedIndex_eq, releasedIndex_eq, State.mk.injEq]
  refine ⟨Store.set_comm _ _ _ hn, Store.remove_comm _ _ _, ?_, rfl, rfl, rfl, rfl⟩
  show (releaseFrom (s.entry.set name e name') name' _).push _ _ = (releaseFrom (s.entry.set name' e' name) name _).push _ _
  rw [Store.set_ne _ _ hn.symm, Store.set_ne _ _ hn]
  exact hindex.symm

/-- **`register` after such a registration is `register` before it, with the registration carried over.** -/
theorem register_registered (hnft : s.nftContract = none) (hn : name' ≠ name) (ho : owner ≠ e.owner) :
    (register out self env (registered s name e) w name' owner none none nowUnix expiresAt gracePeriodEndsAt).toOption
      = (register out self env s w name' owner none none nowUnix expiresAt gracePeriodEndsAt).toOption.map
          (Prod.map (fun s => registered s name e) id) := by
  have hnft' : (registered s name e).nftContract = none := hnft
  apply Option.ext
  rintro ⟨s', w'⟩
  rw [toOption_eq_some, register_without_nft hnft', registrable_registered hn, Option.map_eq_some_iff]
  constructor
  · rintro ⟨h, rfl, rfl⟩
    refine ⟨_, toOption_eq_some.mpr ((register_without_nft hnft).mpr ⟨h, rfl, rfl⟩), ?_⟩
    exact congrArg (fun s' => (s', _)) (registered_comm (Ne.symm hn) (Ne.symm ho)).symm
  · rintro ⟨⟨s₁, w₁⟩, hok, hmap⟩
    obtain ⟨h, rfl, rfl⟩ := (register_without_nft hnft).mp (toOption_eq_some.mp hok)
    obtain ⟨rfl, rfl⟩ := Prod.mk.inj hmap
    exact ⟨h, registered_comm hn ho, rfl⟩

end XlmNs.Registry
