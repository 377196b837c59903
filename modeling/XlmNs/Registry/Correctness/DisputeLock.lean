import XlmNs.Registry.Correctness.OwnerIndex

/-!
# `Registry.Correctness.DisputeLock` — a dispute lock freezes its name

Eight entrypoints change a name (`Call.mutates`), each with its own clock. `step_mutation` says what they have in
common: the name is not locked at that clock, its lock is gone afterwards, and no other name is touched. So a lock
stops all eight for as long as no clock is past it (`frozen`), and as only a name with an entry can be locked, and
whoever takes the entry takes the lock, no lock is left without an entry (`preserves_locksKnown`).
-/

namespace XlmNs.Registry

open Soroban

variable {ω : Type} {out : Outside ω} {self : Address} {env : Env} {s s' : State} {w w' : ω}
variable {n : Bytes} {now : UInt64} {t : Tx Call}

/-- The name a call changes, and the clock it reads: its argument, for `update_owner` the ledger's. -/
def Call.mutates (env : Env) : Call → Option (Bytes × UInt64)
  | .register name _ _ _ nowUnix _ _       => some (name, nowUnix)
  | .transfer name _ _ nowUnix             => some (name, nowUnix)
  | .setResolver name _ _ nowUnix          => some (name, nowUnix)
  | .setTargetAddress name _ _ nowUnix     => some (name, nowUnix)
  | .setMetadata name _ _ nowUnix          => some (name, nowUnix)
  | .updateOwner name _ _                  => some (name, env.timestamp)
  | .renew name _ _ _ nowUnix              => some (name, nowUnix)
  | .burn name _ nowUnix                   => some (name, nowUnix)
  | _                                      => none

/-- The name a call locks or unlocks. -/
def Call.locks : Call → Option Bytes
  | .lockName name _ _ _ _ => some name
  | .unlockName name _     => some name
  | _                      => none

/-! ## What the eight have in common -/

/-- **A change of the name `n` made at `now`**: `n` was not locked, its lock is gone, other names stay. -/
structure Mutation (s s' : State) (n : Bytes) (now : UInt64) : Prop where
  unlocked : UnlockedAt s n now
  lock     : s'.lock = s.lock.remove n
  entry    : ∀ m, m ≠ n → s'.entry m = s.entry m
  listed   : ∀ m, m ≠ n → ∀ owner, m ∈ namesForOwner s' owner ↔ m ∈ namesForOwner s owner

/-- A rewriting mutates a name that is not locked. -/
theorem Rewrites.mutation {caller : Address} (h : Rewrites env s s' n caller now) : Mutation s s' n now := by
  obtain ⟨_, hl, _, _, _, _, _, _, _, _, _, _, rfl⟩ := h
  exact ⟨hl, rfl, fun _ hm => Store.set_ne _ _ hm, fun _ _ _ => Iff.rfl⟩

/-- Taking a name off a list or putting it on one leaves the others. -/
theorem mem_filterOut_of_ne {idx : Index Address Bytes} {m : Bytes} (hm : m ≠ n) {o owner : Address} :
    m ∈ (idx.filterOut o n).keys owner ↔ m ∈ idx.keys owner := by
  rw [Index.mem_keys_filterOut]
  exact and_iff_left (fun h => hm h.2)

theorem mem_push_of_ne {idx : Index Address Bytes} {m : Bytes} (hm : m ≠ n) {o owner : Address} :
    m ∈ (idx.push o n).keys owner ↔ m ∈ idx.keys owner := by
  rw [Index.mem_keys_push]
  exact or_iff_left (fun h => hm h.2)

/-- So does a move. -/
theorem mutation_moveName {e : RegistryEntry} {newOwner : Address} (hl : UnlockedAt s n now) :
    Mutation s (moveName (removeLock s n) n e newOwner) n now where
  unlocked := hl
  lock     := rfl
  entry    := fun _ hm => Store.set_ne _ _ hm
  listed   := fun _ hm _ => (mem_push_of_ne hm).trans (mem_filterOut_of_ne hm)

/-- So does a registration. -/
theorem mutation_register {owner : Address} {targetAddress metadataUri : Option Bytes}
    {expiresAt gracePeriodEndsAt : UInt64}
    (h : register out self env s w n owner targetAddress metadataUri now expiresAt gracePeriodEndsAt
      = .ok (s', w')) : Mutation s s' n now := by
  obtain ⟨_, _, hl, _, _, _, s₁, w₁, hrelease, rfl, _⟩ := register_eq_ok.mp h
  -- a new name, or one whose old entry and index position go first
  rcases release_eq_ok.mp hrelease with ⟨_, rfl, _⟩ | ⟨e, _, _, _, rfl, _⟩
  · exact ⟨hl, rfl, fun _ hm => Store.set_ne _ _ hm, fun _ hm _ => mem_push_of_ne hm⟩
  · refine ⟨hl, rfl, ?_, ?_⟩
    · intro m hm
      exact (Store.set_ne _ _ hm).trans (Store.remove_ne _ hm)
    · intro m hm owner
      exact (mem_push_of_ne hm).trans (mem_filterOut_of_ne hm)

/-- **Every committed change of a name is a `Mutation`.** -/
theorem step_mutation (h : step out self (s, w) t = .ok (s', w')) (hm : t.call.mutates t.env = some (n, now)) :
    Mutation s s' n now := by
  obtain ⟨env, c⟩ := t
  cases c with
  | register name owner ta uri nowUnix exp grace =>
      obtain ⟨rfl, rfl⟩ := Prod.mk.inj (Option.some.inj hm)
      exact mutation_register h
  | transfer name caller newOwner nowUnix =>
      obtain ⟨rfl, rfl⟩ := Prod.mk.inj (Option.some.inj hm)
      obtain ⟨_, hl, e, _, _, _, rfl, _⟩ := transfer_eq_ok.mp h
      exact mutation_moveName hl
  | setResolver name caller resolver nowUnix =>
      obtain ⟨rfl, rfl⟩ := Prod.mk.inj (Option.some.inj hm)
      simp only [step, bind_eq_ok, pure_eq_ok, Prod.mk.injEq] at h
      obtain ⟨_, h, rfl, _⟩ := h
      exact (setResolver_ok h).mutation
  | setTargetAddress name caller targetAddress nowUnix =>
      obtain ⟨rfl, rfl⟩ := Prod.mk.inj (Option.some.inj hm)
      simp only [step, bind_eq_ok, pure_eq_ok, Prod.mk.injEq] at h
      obtain ⟨_, h, rfl, _⟩ := h
      exact (setTargetAddress_ok h).mutation
  | setMetadata name caller metadataUri nowUnix =>
      obtain ⟨rfl, rfl⟩ := Prod.mk.inj (Option.some.inj hm)
      simp only [step, bind_eq_ok, pure_eq_ok, Prod.mk.injEq] at h
      obtain ⟨_, h, rfl, _⟩ := h
      exact (setMetadata_ok h).mutation
  | updateOwner name caller newOwner =>
      obtain ⟨rfl, rfl⟩ := Prod.mk.inj (Option.some.inj hm)
      simp only [step, bind_eq_ok, pure_eq_ok, Prod.mk.injEq] at h
      obtain ⟨_, h, rfl, _⟩ := h
      obtain ⟨_, _, hl, e, _, _, rfl⟩ := updateOwner_eq_ok.mp h
      exact mutation_moveName hl
  | renew name caller exp grace nowUnix =>
      obtain ⟨rfl, rfl⟩ := Prod.mk.inj (Option.some.inj hm)
      obtain ⟨_, hl, _, _, _, _, _, _, _, _, rfl, _⟩ := renew_eq_ok.mp h
      exact ⟨hl, rfl, fun _ hm => Store.set_ne _ _ hm, fun _ _ _ => Iff.rfl⟩
  | burn name caller nowUnix =>
      obtain ⟨rfl, rfl⟩ := Prod.mk.inj (Option.some.inj hm)
      obtain ⟨_, hl, _, _, _, rfl, _⟩ := burn_eq_ok.mp h
      exact ⟨hl, rfl, fun _ hm => Store.remove_ne _ hm, fun _ hm _ => mem_filterOut_of_ne hm⟩
  | _ => cases hm

/-! ## The other calls -/

/-- What a call that changes no name does to the locks. -/
inductive LockChange (s s' : State) : Call → Prop
  | none {c : Call} (hlock : s'.lock = s.lock) : LockChange s s' c
  /-- only a name with an entry is locked -/
  | lock {name : Bytes} {caller : Address} {lockedUntil : UInt64} {lockReason : Bytes} {nowUnix : UInt64}
      (hentry : ∃ e, s.entry name = some e) (hlock : s'.lock = s.lock.set name ⟨lockedUntil, lockReason⟩) :
      LockChange s s' (.lockName name caller lockedUntil lockReason nowUnix)
  | unlock {name : Bytes} {caller : Address} (hlock : s'.lock = s.lock.remove name) :
      LockChange s s' (.unlockName name caller)

/-- A call that mutates no name leaves the entries and the lists. -/
theorem step_lockChange (h : step out self (s, w) t = .ok (s', w')) (hm : t.call.mutates t.env = none) :
    s'.entry = s.entry ∧ s'.ownerNames = s.ownerNames ∧ LockChange s s' t.call := by
  obtain ⟨env, c⟩ := t
  cases c with
  | initializeContract admin =>
      simp only [step, initializeContract, bind_eq_ok, pure_eq_ok, Prod.mk.injEq] at h
      obtain ⟨_, ⟨_, _, rfl⟩, rfl, _⟩ := h
      exact ⟨rfl, rfl, .none rfl⟩
  | setNftContract nft =>
      simp only [step, setNftContract, bind_eq_ok, pure_eq_ok, Prod.mk.injEq] at h
      obtain ⟨_, ⟨_, _, _, _, rfl⟩, rfl, _⟩ := h
      exact ⟨rfl, rfl, .none rfl⟩
  | setDisputeAdmin admin =>
      simp only [step, setDisputeAdmin, bind_eq_ok, pure_eq_ok, Prod.mk.injEq] at h
      obtain ⟨_, ⟨_, _, _, _, rfl⟩, rfl, _⟩ := h
      exact ⟨rfl, rfl, .none rfl⟩
  | upgrade data =>
      simp only [step, upgrade, upgradeStoring_eq_ok, bind_eq_ok, pure_eq_ok, Prod.mk.injEq] at h
      obtain ⟨_, ⟨_, rfl⟩, rfl, _⟩ := h
      exact ⟨rfl, rfl, .none rfl⟩
  | lockName name caller lockedUntil lockReason nowUnix =>
      simp only [step, lockName, bind_eq_ok, getEntry_eq_ok, pure_eq_ok, Prod.mk.injEq] at h
      obtain ⟨_, ⟨_, _, _, _, _, _, _, _, e, he, _, _, rfl⟩, rfl, _⟩ := h
      exact ⟨rfl, rfl, .lock ⟨e, he⟩ rfl⟩
  | unlockName name caller =>
      simp only [step, unlockName, bind_eq_ok, pure_eq_ok, Prod.mk.injEq] at h
      obtain ⟨_, ⟨_, _, _, _, _, _, _, _, _, _, rfl⟩, rfl, _⟩ := h
      exact ⟨rfl, rfl, .unlock rfl⟩
  | _ => cases hm

/-! ## No lock without an entry -/

/-- Every lock is on a registered name. -/
def LocksKnown (s : State) : Prop := ∀ n lock, s.lock n = some lock → ∃ e, s.entry n = some e

/-- There are no locks at the start. -/
theorem locksKnown_empty : LocksKnown State.empty := by
  intro n lock h
  cases h

/-- Every lock is on a name the registry knows, and stays so. -/
theorem preserves_locksKnown (out : Outside ω) (self : Address) :
    Preserves (step out self) (fun sw => LocksKnown sw.1) := by
  rintro ⟨s, w⟩ t ⟨s', w'⟩ hs h n lock hlock
  cases hm : t.call.mutates t.env with
  | some target =>
      obtain ⟨name, now⟩ := target
      -- only the changed name can lose its entry, and it loses its lock too
      have hmutation := step_mutation h hm
      rw [hmutation.lock] at hlock
      obtain ⟨hn, hlock⟩ := Store.remove_eq_some.mp hlock
      rw [hmutation.entry n hn]
      exact hs n lock hlock
  | none =>
      obtain ⟨hentry, _, hchange⟩ := step_lockChange h hm
      rw [hentry]
      generalize t.call = c at hchange
      cases hchange with
      | none hsame =>
          rw [hsame] at hlock
          exact hs n lock hlock
      | lock hknown hset =>
          rw [hset] at hlock
          rcases Store.set_eq_some.mp hlock with ⟨rfl, _⟩ | ⟨_, hold⟩
          · exact hknown
          · exact hs n lock hold
      | unlock hremove =>
          rw [hremove] at hlock
          exact hs n lock (Store.remove_eq_some.mp hlock).2

/-! ## While the lock lasts -/

/-- The call neither locks nor unlocks the name, and its clock, if it has one, is not past the lock. -/
def WithinLock (n : Bytes) (lockedUntil : UInt64) (t : Tx Call) : Prop :=
  t.call.locks ≠ some n ∧ ∀ name now, t.call.mutates t.env = some (name, now) → now ≤ lockedUntil

/-- Entry, lock and index positions of a name are the same in two states. -/
structure SameName (n : Bytes) (s s' : State) : Prop where
  entry  : s'.entry n = s.entry n
  lock   : s'.lock n = s.lock n
  listed : ∀ owner, n ∈ namesForOwner s' owner ↔ n ∈ namesForOwner s owner

theorem SameName.refl (n : Bytes) (s : State) : SameName n s s := ⟨rfl, rfl, fun _ => Iff.rfl⟩

theorem SameName.trans {s₁ : State} (h : SameName n s s₁) (h' : SameName n s₁ s') : SameName n s s' where
  entry  := h'.entry.trans h.entry
  lock   := h'.lock.trans h.lock
  listed := fun owner => (h'.listed owner).trans (h.listed owner)

/-- A locked name cannot be changed by a clock that is not past the lock. -/
theorem locked_rejects {lock : NameLock} (hlock : s.lock n = some lock) (hnow : now ≤ lock.lockedUntil)
    (hm : t.call.mutates t.env = some (n, now)) : ¬ ∃ sw', step out self (s, w) t = .ok sw' := by
  rintro ⟨⟨s', w'⟩, h⟩
  have hlate := (step_mutation h hm).unlocked lock hlock
  exact UInt64.lt_irrefl _ (UInt64.lt_of_lt_of_le hlate hnow)

/-- **One step**: whatever commits leaves the locked name alone. -/
theorem locked_step {lock : NameLock} (hlock : s.lock n = some lock) (ht : WithinLock n lock.lockedUntil t)
    (h : step out self (s, w) t = .ok (s', w')) : SameName n s s' := by
  cases hm : t.call.mutates t.env with
  | some target =>
      obtain ⟨name, now⟩ := target
      -- a change of `n` itself would have been rejected
      have hn : n ≠ name := by
        rintro rfl
        exact locked_rejects hlock (ht.2 _ _ hm) hm ⟨_, h⟩
      have hmutation := step_mutation h hm
      exact ⟨hmutation.entry n hn, by rw [hmutation.lock, Store.remove_ne _ hn], hmutation.listed n hn⟩
  | none =>
      obtain ⟨hentry, hindex, hchange⟩ := step_lockChange h hm
      refine ⟨by rw [hentry], ?_, fun owner => by unfold namesForOwner; rw [hindex]⟩
      have hlocks := ht.1
      generalize t.call = c at hchange hlocks
      cases hchange with
      | none hsame => rw [hsame]
      | @lock name _ _ _ _ _ hset =>
          have hn : n ≠ name := by
            rintro rfl
            exact hlocks rfl
          rw [hset, Store.set_ne _ _ hn]
      | @unlock name _ hremove =>
          have hn : n ≠ name := by
            rintro rfl
            exact hlocks rfl
          rw [hremove, Store.remove_ne _ hn]

/-- **Whole runs**: while the lock lasts, the name stays as it is, and every call that would change it fails. -/
theorem frozen (out : Outside ω) (self : Address) {sw : State × ω} {lock : NameLock} (hlock : sw.1.lock n = some lock)
    {us : List (Tx Call)} (hus : ∀ t ∈ us, WithinLock n lock.lockedUntil t) :
    SameName n sw.1 (run (step out self) sw us).1 ∧
      Along (step out self) (fun sw t => ∀ now, t.call.mutates t.env = some (n, now) →
        ¬ ∃ sw', step out self sw t = .ok sw') sw us := by
  -- on the run: the lock found at its start is still there before every call
  induction us generalizing sw with
  | nil => exact ⟨.refl n sw.1, trivial⟩
  | cons t us ih =>
      have ht := hus t List.mem_cons_self
      have hsame : SameName n sw.1 (exec (step out self) sw t).1 := by
        apply exec_of_ok (P := fun sw' : State × ω => SameName n sw.1 sw'.1) (.refl n sw.1)
        rintro ⟨s', w'⟩ h
        exact locked_step hlock ht h
      obtain ⟨hrest, halong⟩ := ih (hsame.lock.trans hlock) (fun u hu => hus u (List.mem_cons_of_mem t hu))
      refine ⟨hsame.trans hrest, ?_, halong⟩
      intro now hm
      exact locked_rejects hlock (ht.2 n now hm) hm

/-- **A dispute lock freezes its name.** After any run from a fresh deployment, every lock is on a registered name.
    And if `n` is locked until `L`, then in any further run whose calls leave the lock alone and whose clocks are
    not past `L`, every call that would change `n` fails, and its entry, its lock and its index positions stay. -/
theorem dispute_lock_freezes (out : Outside ω) (self : Address) (w : ω) (ts : List (Tx Call)) :
    let sw := after out self w ts
    (∀ n lock, sw.1.lock n = some lock → ∃ e, sw.1.entry n = some e) ∧
    ∀ n lock us, sw.1.lock n = some lock → (∀ t ∈ us, WithinLock n lock.lockedUntil t) →
      Along (step out self) (fun sw t => ∀ now, t.call.mutates t.env = some (n, now) →
        ¬ ∃ sw', step out self sw t = .ok sw') sw us ∧
      let sw' := run (step out self) sw us
      sw'.1.entry n = sw.1.entry n ∧ sw'.1.lock n = sw.1.lock n ∧
      ∀ owner, n ∈ namesForOwner sw'.1 owner ↔ n ∈ namesForOwner sw.1 owner := by
  intro sw
  constructor
  · exact (preserves_locksKnown out self).run ts locksKnown_empty
  · intro n lock us hlock hus
    obtain ⟨hsame, halong⟩ := frozen out self hlock hus
    exact ⟨halong, hsame.entry, hsame.lock, hsame.listed⟩

end XlmNs.Registry
