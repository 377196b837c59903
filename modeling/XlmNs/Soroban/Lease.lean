import Mathlib.Logic.Function.Basic

/-!
# `Soroban.Lease` — records of holders next to a table of leases

A table of leases gives a key a holder and an expiry. Another table records, for some of the keys, who holds them.
The records are `Fresh` at a time when each names the holder of a lease that has not run out by then.

Writes go to one table at a time. `Matched`, the part of freshness that does not look at the clock, is what carries
over from one write to the next; given it, each rule says exactly when a kind of write leaves the records fresh:
which other keys must be unexpired (`UnexpiredAt`), and what the written key needs.
-/

namespace Soroban.Lease

variable {κ α τ : Type} [LE τ] {records records' : κ → Option α} {leases leases' : κ → Option (α × τ)}
variable {now : τ} {k : κ}

/-- **Every record names the holder of a lease that is not over.** -/
def Fresh (now : τ) (records : κ → Option α) (leases : κ → Option (α × τ)) : Prop :=
  ∀ k a, records k = some a → ∃ expiry, leases k = some (a, expiry) ∧ now ≤ expiry

/-- Every record names the holder of a lease. -/
def Matched (records : κ → Option α) (leases : κ → Option (α × τ)) : Prop :=
  ∀ k a, records k = some a → ∃ expiry, leases k = some (a, expiry)

/-- The lease of a recorded key is not over. -/
def UnexpiredAt (now : τ) (records : κ → Option α) (leases : κ → Option (α × τ)) (k : κ) : Prop :=
  ∀ a lease, records k = some a → leases k = some lease → now ≤ lease.2

theorem Fresh.matched (h : Fresh now records leases) : Matched records leases := by
  intro k a ha
  obtain ⟨expiry, hlease, _⟩ := h k a ha
  exact ⟨expiry, hlease⟩

/-- A matched record is fresh iff its lease is not over. -/
theorem freshAt_iff (hm : Matched records leases) :
    (∀ a, records k = some a → ∃ expiry, leases k = some (a, expiry) ∧ now ≤ expiry) ↔
      UnexpiredAt now records leases k := by
  constructor
  · intro hfresh a lease ha hlease
    obtain ⟨expiry, hlease', hle⟩ := hfresh a ha
    obtain rfl := Option.some.inj (hlease.symm.trans hlease')
    exact hle
  · intro hunexpired a ha
    obtain ⟨expiry, hlease⟩ := hm k a ha
    exact ⟨expiry, hlease, hunexpired a (a, expiry) ha hlease⟩

/-- **Nothing is written**: only time goes on. -/
theorem fresh_iff (hm : Matched records leases) :
    Fresh now records leases ↔ ∀ j, UnexpiredAt now records leases j :=
  forall_congr' (fun _ => freshAt_iff hm)

/-- **One key is written**: the others must be unexpired, and the written one fresh. -/
theorem fresh_write_iff (hm : Matched records leases) (hrecords : ∀ j, j ≠ k → records' j = records j)
    (hleases : ∀ j, j ≠ k → leases' j = leases j) :
    Fresh now records' leases' ↔ (∀ j, j ≠ k → UnexpiredAt now records leases j) ∧
      ∀ a, records' k = some a → ∃ expiry, leases' k = some (a, expiry) ∧ now ≤ expiry := by
  constructor
  · intro hfresh
    refine ⟨?_, hfresh k⟩
    intro j hj
    apply (freshAt_iff hm).mp
    rw [← hrecords j hj, ← hleases j hj]
    exact hfresh j
  · rintro ⟨hothers, hk⟩ j
    by_cases hj : j = k
    · subst hj
      exact hk
    · rw [hrecords j hj, hleases j hj]
      exact (freshAt_iff hm).mpr (hothers j hj)

/-- The written key's own lease, when it counts with the others. -/
theorem forall_unexpired_iff :
    (∀ j, UnexpiredAt now records leases j) ↔
      (∀ j, j ≠ k → UnexpiredAt now records leases j) ∧ UnexpiredAt now records leases k := by
  constructor
  · intro h
    exact ⟨fun j _ => h j, h k⟩
  · rintro ⟨hothers, hk⟩ j
    by_cases hj : j = k
    · rw [hj]
      exact hk
    · exact hothers j hj

variable [DecidableEq κ]

theorem fresh_lease_iff (hm : Matched records leases) (lease : Option (α × τ)) :
    Fresh now records (Function.update leases k lease) ↔
      (∀ j, j ≠ k → UnexpiredAt now records leases j) ∧
        ∀ a, records k = some a → ∃ expiry, lease = some (a, expiry) ∧ now ≤ expiry := by
  rw [fresh_write_iff hm (fun _ _ => rfl) (fun _ hj => Function.update_of_ne hj lease leases),
    Function.update_self]

theorem fresh_record_iff (hm : Matched records leases) (record : Option α) :
    Fresh now (Function.update records k record) leases ↔
      (∀ j, j ≠ k → UnexpiredAt now records leases j) ∧
        ∀ a, record = some a → ∃ expiry, leases k = some (a, expiry) ∧ now ≤ expiry := by
  rw [fresh_write_iff hm (fun _ hj => Function.update_of_ne hj record records) (fun _ _ => rfl),
    Function.update_self]

/-! ## Writes to the leases -/

/-- A lease begins: a record of the key must name the new holder, and the new expiry be ahead. -/
theorem fresh_begin_iff (hm : Matched records leases) (holder : α) (expiry : τ) :
    Fresh now records (Function.update leases k (some (holder, expiry))) ↔
      (∀ j, j ≠ k → UnexpiredAt now records leases j) ∧
        ∀ a, records k = some a → a = holder ∧ now ≤ expiry := by
  rw [fresh_lease_iff hm]
  refine and_congr_right (fun _ => forall₂_congr ?_)
  intro a _
  constructor
  · rintro ⟨e, he, hle⟩
    obtain ⟨rfl, rfl⟩ := Prod.mk.inj (Option.some.inj he)
    exact ⟨rfl, hle⟩
  · rintro ⟨rfl, hle⟩
    exact ⟨expiry, rfl, hle⟩

/-- A lease is extended, or cut: the new expiry must be ahead if there is a record. -/
theorem fresh_extend_iff (hm : Matched records leases) (expiry : τ) :
    Fresh now records (Function.update leases k ((leases k).map (fun lease => (lease.1, expiry)))) ↔
      (∀ j, j ≠ k → UnexpiredAt now records leases j) ∧ ∀ a, records k = some a → now ≤ expiry := by
  rw [fresh_lease_iff hm]
  refine and_congr_right (fun _ => forall₂_congr ?_)
  intro a ha
  obtain ⟨old, hold⟩ := hm k a ha
  rw [hold]
  constructor
  · rintro ⟨e, he, hle⟩
    obtain ⟨_, rfl⟩ := Prod.mk.inj (Option.some.inj he)
    exact hle
  · intro hle
    exact ⟨expiry, rfl, hle⟩

/-- A lease goes to a new holder: a record of the key must already name them. -/
theorem fresh_assign_iff (hm : Matched records leases) (holder : α) :
    Fresh now records (Function.update leases k ((leases k).map (fun lease => (holder, lease.2)))) ↔
      (∀ j, UnexpiredAt now records leases j) ∧ ∀ a, records k = some a → a = holder := by
  rw [fresh_lease_iff hm, forall_unexpired_iff (k := k), and_assoc]
  refine and_congr_right (fun _ => ?_)
  constructor
  · intro hk
    constructor
    · intro a lease ha hlease
      obtain ⟨e, he, hle⟩ := hk a ha
      rw [hlease] at he
      obtain ⟨_, rfl⟩ := Prod.mk.inj (Option.some.inj he)
      exact hle
    · intro a ha
      obtain ⟨e, he, _⟩ := hk a ha
      obtain ⟨old, hold⟩ := hm k a ha
      rw [hold] at he
      exact (Prod.mk.inj (Option.some.inj he)).1.symm
  · rintro ⟨hunexpired, hsame⟩ a ha
    obtain ⟨old, hold⟩ := hm k a ha
    refine ⟨old, ?_, hunexpired a (a, old) ha hold⟩
    rw [hold, hsame a ha]
    rfl

/-- A lease ends: there must be no record of the key. -/
theorem fresh_end_iff (hm : Matched records leases) :
    Fresh now records (Function.update leases k none) ↔
      (∀ j, UnexpiredAt now records leases j) ∧ records k = none := by
  rw [fresh_lease_iff hm, forall_unexpired_iff (k := k), and_assoc]
  refine and_congr_right (fun _ => ?_)
  constructor
  · intro hk
    have hnone : records k = none := by
      cases ha : records k with
      | none => rfl
      | some a =>
          obtain ⟨_, he, _⟩ := hk a ha
          cases he
    refine ⟨?_, hnone⟩
    intro a _ ha
    cases hnone.symm.trans ha
  · rintro ⟨_, hnone⟩ a ha
    cases hnone.symm.trans ha

/-! ## Writes to the records -/

/-- The holder is recorded: their lease must not be over. -/
theorem fresh_enter_iff (hm : Matched records leases) {holder : α} {expiry : τ}
    (hk : leases k = some (holder, expiry)) :
    Fresh now (Function.update records k (some holder)) leases ↔
      (∀ j, UnexpiredAt now records leases j) ∧ now ≤ expiry := by
  rw [fresh_record_iff hm]
  constructor
  · rintro ⟨hothers, hwritten⟩
    obtain ⟨e, he, hle⟩ := hwritten holder rfl
    rw [hk] at he
    obtain ⟨_, rfl⟩ := Prod.mk.inj (Option.some.inj he)
    refine ⟨forall_unexpired_iff.mpr ⟨hothers, ?_⟩, hle⟩
    intro a lease _ hlease
    rw [hk] at hlease
    cases hlease
    exact hle
  · rintro ⟨hall, hle⟩
    refine ⟨fun j _ => hall j, ?_⟩
    intro a ha
    cases ha
    exact ⟨expiry, hk, hle⟩

/-- A record is rewritten for somebody: they must be the holder. -/
theorem fresh_rename_iff (hm : Matched records leases) {old : α} (hk : records k = some old) (holder : α) :
    Fresh now (Function.update records k (some holder)) leases ↔
      (∀ j, UnexpiredAt now records leases j) ∧ ∀ lease, leases k = some lease → lease.1 = holder := by
  obtain ⟨expiry, hlease⟩ := hm k old hk
  constructor
  · intro hfresh
    obtain ⟨e, he, _⟩ := hfresh k holder (Function.update_self k _ records)
    have hsame : holder = old := by
      rw [hlease] at he
      exact (Prod.mk.inj (Option.some.inj he)).1.symm
    subst hsame
    refine ⟨((fresh_enter_iff hm hlease).mp hfresh).1, ?_⟩
    intro lease hl
    rw [hlease] at hl
    cases hl
    rfl
  · rintro ⟨hall, hsame⟩
    obtain rfl : old = holder := hsame (old, expiry) hlease
    exact (fresh_enter_iff hm hlease).mpr ⟨hall, hall k old (old, expiry) hk hlease⟩

/-- A record is removed. -/
theorem fresh_forget_iff (hm : Matched records leases) :
    Fresh now (Function.update records k none) leases ↔
      ∀ j, j ≠ k → UnexpiredAt now records leases j := by
  rw [fresh_record_iff hm]
  constructor
  · intro h
    exact h.1
  · intro h
    refine ⟨h, ?_⟩
    intro a ha
    cases ha

end Soroban.Lease
