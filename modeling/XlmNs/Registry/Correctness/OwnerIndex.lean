import XlmNs.Registry.Steps
import XlmNs.Soroban.Machine

/-!
# `Registry.Correctness.OwnerIndex` — the registry's storage is consistent in every reachable state

`Consistent` is the registry's data invariant: the owner index is the exact inverse of the entries' owners,
every entry is stored under its own valid name, and its lifecycle bounds are ordered. Each `Change` keeps it
(the index part by the library rules for `insert`, `remove`, `move`, `edit`), so it holds after every run from
the empty registry, whatever the NFT and resolver contracts do in between.
-/

namespace XlmNs.Registry

open Soroban

variable {ω : Type} {out : Outside ω} {self : Address} {env : Env} {s s' : State}

/-- What every stored entry satisfies. -/
structure EntryValid (name : Bytes) (e : RegistryEntry) : Prop where
  name_eq : e.name = name
  fqdn    : validateFqdnSoroban name = .ok ()
  started : e.registeredAt ≤ e.expiresAt
  ordered : e.expiresAt ≤ e.gracePeriodEndsAt

/-- The registry's data invariant. -/
structure Consistent (s : State) : Prop where
  index : Index.Exact s.ownerNames s.entry RegistryEntry.owner
  entry : ∀ n e, s.entry n = some e → EntryValid n e

/-- The registry starts out consistent. -/
theorem consistent_empty : Consistent State.empty :=
  ⟨Index.Exact.empty _, fun _ _ h => by cases h⟩

/-- Replacing one entry keeps the entries valid when the new one is. -/
theorem entries_valid_set {m : Store Bytes RegistryEntry} {name : Bytes} {e : RegistryEntry}
    (h : ∀ n e, m n = some e → EntryValid n e) (he : EntryValid name e) :
    ∀ n e', m.set name e n = some e' → EntryValid n e' := by
  intro n e' hn
  rcases Store.set_eq_some.mp hn with ⟨rfl, rfl⟩ | ⟨_, hn⟩
  · exact he
  · exact h n e' hn

/-- Deleting an entry leaves the others valid. -/
theorem entries_valid_remove {m : Store Bytes RegistryEntry} {name : Bytes}
    (h : ∀ n e, m n = some e → EntryValid n e) : ∀ n e, m.remove name n = some e → EntryValid n e := by
  intro n e hn
  exact h n e (Store.remove_eq_some.mp hn).2

/-- Registering follows the index rules: release the old entry, if any, then insert the new one. -/
theorem index_register (h : Index.Exact s.ownerNames s.entry RegistryEntry.owner) (name : Bytes)
    (e : RegistryEntry) :
    Index.Exact ((releasedIndex s name).push e.owner name) (s.entry.set name e)
      RegistryEntry.owner := by
  unfold releasedIndex
  cases he : s.entry name with
  | none => exact h.insert e he
  | some old => exact h.move e he

/-- **Every change keeps the data invariant.** -/
theorem Change.consistent {c : Call} (hc : Change env s s' c) (h : Consistent s) : Consistent s' := by
  cases hc with
  | frame _ hentry hindex =>
      constructor
      · rw [hentry, hindex]
        exact h.index
      · rw [hentry]
        exact h.entry
  | rewrite _ he _ hname howner hreg hexp hgrace hentry hindex =>
      have hv := h.entry _ _ he
      constructor
      · rw [hentry, hindex]
        exact h.index.edit he howner
      · rw [hentry]
        refine entries_valid_set h.entry ⟨hname.trans hv.name_eq, hv.fqdn, ?_, ?_⟩
        · rw [hreg, hexp]; exact hv.started
        · rw [hexp, hgrace]; exact hv.ordered
  | renew he _ _ _ hexp _ hlife hentry hindex =>
      have hv := h.entry _ _ he
      constructor
      · rw [hentry, hindex]
        exact h.index.edit he rfl
      · -- the expiry only moves forward, so it stays after the registration
        have hstarted := UInt64.le_trans hv.started hexp
        rw [hentry]
        exact entries_valid_set h.entry ⟨hv.name_eq, hv.fqdn, hstarted, hlife⟩
  | @move _ _ newOwner e he _ _ hentry hindex =>
      have hv := h.entry _ _ he
      constructor
      · rw [hentry, hindex]
        exact h.index.move { e with
          owner := newOwner, transferCount := saturatingAdd32 e.transferCount 1 } he
      · rw [hentry]
        exact entries_valid_set h.entry ⟨hv.name_eq, hv.fqdn, hv.started, hv.ordered⟩
  | burn he _ _ hentry hindex =>
      constructor
      · rw [hentry, hindex]
        exact h.index.remove he
      · rw [hentry]
        exact entries_valid_remove h.entry
  | @register name owner ta uri now exp grace _ hvalid hnow hlife _ hentry hindex =>
      constructor
      · rw [hentry, hindex]
        exact index_register h.index name (freshEntry name owner ta uri now exp grace)
      · rw [hentry]
        exact entries_valid_set h.entry ⟨rfl, hvalid, hnow, hlife⟩

/-- It stays so, whatever is called. -/
theorem preserves_consistent (out : Outside ω) (self : Address) :
    Preserves (step out self) (fun sw => Consistent sw.1) := by
  intro sw t sw' h hstep
  exact (step_change hstep).consistent h

/-- The registry after a run from a fresh deployment. -/
def after (out : Outside ω) (self : Address) (w : ω) (ts : List (Tx Call)) : State × ω :=
  run (step out self) (State.empty, w) ts

/-- So it is after every run. -/
theorem after_consistent (out : Outside ω) (self : Address) (w : ω) (ts : List (Tx Call)) :
    Consistent (after out self w ts).1 :=
  (preserves_consistent out self).run ts consistent_empty

/-- A consistent registry has nothing to report to `audit_owner_index`. -/
theorem Consistent.audit_nil (h : Consistent s) (owner : Address) : auditOwnerIndex s owner = [] := by
  unfold auditOwnerIndex
  rw [List.filter_eq_nil_iff]
  intro n hn
  obtain ⟨e, he, rfl⟩ := (h.index.mem_iff owner n).mp hn
  simp [he]

/-- **The owner index agrees with the entries in every reachable registry state.** After any sequence of
    registry invocations, a name is listed under an address iff its entry exists with that owner, no list
    repeats a name, every entry is stored under its own name, and the audit finds nothing. -/
theorem owner_index_exact (out : Outside ω) (self : Address) (w : ω) (ts : List (Tx Call)) :
    let s := (after out self w ts).1
    (∀ owner n, n ∈ namesForOwner s owner ↔ ∃ e, s.entry n = some e ∧ e.owner = owner) ∧
    (∀ owner, (namesForOwner s owner).Nodup) ∧
    (∀ n e, s.entry n = some e → e.name = n) ∧
    ∀ owner, auditOwnerIndex s owner = [] := by
  have h := after_consistent out self w ts
  exact ⟨h.index.mem_iff, h.index.nodup, fun n e he => (h.entry n e he).name_eq, h.audit_nil⟩

end XlmNs.Registry
