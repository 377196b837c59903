import Mathlib.Algebra.BigOperators.Group.Finset.Basic
import XlmNs.Soroban.Store

/-!
# `Soroban.Enumeration` — a list of all keys next to a store

`Enumerates ids m` says the list `ids` holds exactly the keys of the store `m`, each once. Its rules follow the ways
a store changes: a fresh key is appended, a removed one erased, a rewritten one stays. With an exact index next to
it, the lists of the owners add up to the whole list (`Enumerates.length_eq_sum`).
-/

namespace Soroban

variable {ο κ ν : Type} {ids : List κ} {m : Store κ ν}

/-- **The list holds the keys of the store**, each once. -/
structure Enumerates (ids : List κ) (m : Store κ ν) : Prop where
  mem_iff : ∀ k, k ∈ ids ↔ ∃ v, m k = some v
  nodup   : ids.Nodup

namespace Enumerates

theorem empty : Enumerates [] (fun _ => none : Store κ ν) := by
  constructor
  · intro k
    simp
  · exact List.nodup_nil

/-- Every position of the list holds a key of the store. -/
theorem get (h : Enumerates ids m) {i : Nat} (hi : i < ids.length) :
    ∃ k v, ids[i]? = some k ∧ m k = some v := by
  have hk : ids[i]? = some ids[i] := List.getElem?_eq_getElem hi
  obtain ⟨v, hv⟩ := (h.mem_iff ids[i]).mp (List.getElem_mem hi)
  exact ⟨ids[i], v, hk, hv⟩

/-- The values of the store, in the order of the list. -/
theorem values_of_keyed {f : ν → κ} (h : Enumerates ids m) (hkeyed : ∀ k v, m k = some v → f v = k) :
    (ids.filterMap m).map f = ids := by
  have hpresent : ∀ k ∈ ids, ∃ v, m k = some v := fun k hk => (h.mem_iff k).mp hk
  clear h
  induction ids with
  | nil => rfl
  | cons k ids ih =>
      obtain ⟨v, hv⟩ := hpresent k List.mem_cons_self
      rw [List.filterMap_cons_some hv, List.map_cons, hkeyed k v hv]
      exact congrArg (k :: ·) (ih fun j hj => hpresent j (List.mem_cons_of_mem k hj))

variable [DecidableEq κ]

/-- A fresh key is appended. -/
theorem insert (h : Enumerates ids m) {k : κ} (v : ν) (hk : m k = none) :
    Enumerates (ids ++ [k]) (m.set k v) := by
  have hnew : k ∉ ids := by
    intro hmem
    obtain ⟨u, hu⟩ := (h.mem_iff k).mp hmem
    cases hk.symm.trans hu
  constructor
  · intro j
    rw [List.mem_append, List.mem_singleton, h.mem_iff]
    by_cases hj : j = k
    · subst hj
      simp
    · simp [Store.set_ne _ _ hj, hj]
  · exact h.nodup.append (List.nodup_singleton k) (List.disjoint_singleton.mpr hnew)

/-- A key that leaves the store is erased. -/
theorem remove [BEq κ] [LawfulBEq κ] (h : Enumerates ids m) (k : κ) : Enumerates (ids.erase k) (m.remove k) := by
  constructor
  · intro j
    rw [h.nodup.mem_erase_iff, h.mem_iff]
    by_cases hj : j = k
    · subst hj
      simp
    · simp [Store.remove_ne _ hj, hj]
  · exact h.nodup.erase k

/-- The same, with the list rebuilt without the key. -/
theorem filterOut (h : Enumerates ids m) (k : κ) :
    Enumerates (ids.filter (fun j => decide (j ≠ k))) (m.remove k) := by
  have hfilter : ids.filter (fun j => decide (j ≠ k)) = ids.erase k := by
    rw [h.nodup.erase_eq_filter]
    apply List.filter_congr
    intro j _
    simp [bne, beq_eq_decide]
  rw [hfilter]
  exact h.remove k

/-- A value that is replaced keeps its key. -/
theorem edit (h : Enumerates ids m) {k : κ} {v : ν} (v' : ν) (hk : m k = some v) :
    Enumerates ids (m.set k v') := by
  refine ⟨?_, h.nodup⟩
  intro j
  rw [h.mem_iff]
  by_cases hj : j = k
  · subst hj
    simp [hk]
  · simp [Store.set_ne _ _ hj]

/-- **The owners' lists add up to the whole list.** -/
theorem length_eq_sum [DecidableEq ο] {idx : Index ο κ} {f : ν → ο} (h : Enumerates ids m)
    (hidx : Index.Exact idx m f) {owners : Finset ο} (hcover : ∀ k v, m k = some v → f v ∈ owners) :
    ids.length = ∑ o ∈ owners, (idx.keys o).length := by
  have hunion : ids.toFinset = owners.biUnion (fun o => (idx.keys o).toFinset) := by
    ext k
    simp only [List.mem_toFinset, Finset.mem_biUnion, h.mem_iff, hidx.mem_iff]
    constructor
    · rintro ⟨v, hv⟩
      exact ⟨f v, hcover k v hv, v, hv, rfl⟩
    · rintro ⟨_, _, v, hv, _⟩
      exact ⟨v, hv⟩
  -- a key has one owner, so no two lists share one
  have hdisjoint : ∀ o ∈ owners, ∀ p ∈ owners, o ≠ p →
      Disjoint (idx.keys o).toFinset (idx.keys p).toFinset := by
    intro o _ p _ hne
    rw [Finset.disjoint_left]
    intro k ho hp
    obtain ⟨v, hv, hvo⟩ := (hidx.mem_iff o k).mp (List.mem_toFinset.mp ho)
    obtain ⟨u, hu, hup⟩ := (hidx.mem_iff p k).mp (List.mem_toFinset.mp hp)
    obtain rfl := Option.some.inj (hv.symm.trans hu)
    exact hne (hvo.symm.trans hup)
  calc ids.length = ids.toFinset.card := (List.toFinset_card_of_nodup h.nodup).symm
    _ = ∑ o ∈ owners, (idx.keys o).toFinset.card := by rw [hunion, Finset.card_biUnion hdisjoint]
    _ = ∑ o ∈ owners, (idx.keys o).length :=
        Finset.sum_congr rfl (fun o _ => List.toFinset_card_of_nodup (hidx.nodup o))

end Enumerates

end Soroban
