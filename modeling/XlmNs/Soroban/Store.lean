import Mathlib.Logic.Function.Basic
import Mathlib.Data.List.Basic

/-!
# `Soroban.Store` — persistent storage maps and owner indexes

`Store κ ν` is one family of storage keys (`DataKey::Entry(name)`, …): a key is absent (`none`) or holds a
value. `Index ο κ` is the secondary index the contracts keep next to a store: for each owner a list of the
keys it owns, an absent list reading as empty.

`Store.view f m` reads one attribute off the values; writes to the store are writes to the view.

`Store.Mirrors R Live m m'` says two stores of the same keys agree: what `m'` holds is `R`-related to what `m`
holds under that key, and whatever is `Live` in `m` is there in `m'`. Its rules say exactly when a write to one
or both sides keeps the agreement.

`Index.Exact idx m f` says the index is the *exact* inverse of the attribute `f` over the store `m`: a key is
listed under an owner iff the store maps it to a value of that owner, and no list repeats a key. The four
rules `Exact.insert`/`remove`/`move`/`edit` say how the index operations follow the four ways a store changes.
-/

namespace Soroban

/-- One family of storage keys. -/
abbrev Store (κ ν : Type) := κ → Option ν

namespace Store

variable {κ ν : Type} [DecidableEq κ]

/-- `storage().set(&key, &value)`. -/
def set (m : Store κ ν) (k : κ) (v : ν) : Store κ ν := Function.update m k (some v)

/-- `storage().remove(&key)`. -/
def remove (m : Store κ ν) (k : κ) : Store κ ν := Function.update m k none

/-- Reading after a write. -/
theorem set_apply (m : Store κ ν) (k j : κ) (v : ν) :
    m.set k v j = if j = k then some v else m j := Function.update_apply m k (some v) j

/-- Reading after a deletion. -/
theorem remove_apply (m : Store κ ν) (k j : κ) :
    m.remove k j = if j = k then none else m j := Function.update_apply m k none j

@[simp] theorem set_self (m : Store κ ν) (k : κ) (v : ν) : m.set k v k = some v := by
  simp [set_apply]

@[simp] theorem remove_self (m : Store κ ν) (k : κ) : m.remove k k = none := by
  simp [remove_apply]

theorem set_ne (m : Store κ ν) {k j : κ} (v : ν) (h : j ≠ k) : m.set k v j = m j := by
  simp [set_apply, h]

theorem remove_ne (m : Store κ ν) {k j : κ} (h : j ≠ k) : m.remove k j = m j := by
  simp [remove_apply, h]

/-- What a store holds after a write is the value written, or was there under another key. -/
theorem set_eq_some {m : Store κ ν} {k j : κ} {v u : ν} :
    m.set k v j = some u ↔ (j = k ∧ v = u) ∨ (j ≠ k ∧ m j = some u) := by
  by_cases hj : j = k
  · subst hj
    simp
  · simp [set_ne _ _ hj, hj]

/-- What a store holds after a removal was there under another key. -/
theorem remove_eq_some {m : Store κ ν} {k j : κ} {u : ν} :
    m.remove k j = some u ↔ j ≠ k ∧ m j = some u := by
  by_cases hj : j = k
  · subst hj
    simp
  · simp [remove_ne _ hj, hj]

/-- Writing over a removed key is writing over the old value. -/
theorem set_remove (m : Store κ ν) (k : κ) (v : ν) : (m.remove k).set k v = m.set k v := by
  unfold set remove
  rw [Function.update_idem]

/-- Removing an absent key changes nothing. -/
theorem remove_absent {m : Store κ ν} {k : κ} (h : m k = none) : m.remove k = m := by
  unfold remove
  rw [← h]
  exact Function.update_eq_self k m

theorem remove_comm (m : Store κ ν) (j k : κ) : (m.remove j).remove k = (m.remove k).remove j := by
  by_cases hk : j = k
  · rw [hk]
  · exact Function.update_comm hk none none m

theorem remove_set_ne (m : Store κ ν) {j k : κ} (v : ν) (h : k ≠ j) :
    (m.set k v).remove j = (m.remove j).set k v := by
  unfold set remove
  exact Function.update_comm h (some v) none m

omit [DecidableEq κ] in
/-- What every value under a key satisfies, its one value satisfies. -/
theorem forall_value_iff {m : Store κ ν} {k : κ} {v : ν} (h : m k = some v) {P : ν → Prop} :
    (∀ u, m k = some u → P u) ↔ P v := by
  constructor
  · intro hall
    exact hall v h
  · intro hv u hu
    obtain rfl := Option.some.inj (h.symm.trans hu)
    exact hv

/-! ## Reading one attribute -/

/-- What `f` reads off the values. -/
def view {μ : Type} (f : ν → μ) (m : Store κ ν) : Store κ μ := fun k => (m k).map f

omit [DecidableEq κ] in
theorem view_eq {μ : Type} (f : ν → μ) {m : Store κ ν} {k : κ} {v : ν} (h : m k = some v) :
    view f m k = some (f v) := by
  rw [view, h]
  rfl

/-- A view sees the write as the view of what is written. -/
theorem view_update {μ : Type} (f : ν → μ) (m : Store κ ν) (k : κ) (u : Option ν) :
    view f (Function.update m k u) = Function.update (view f m) k (u.map f) := by
  funext j
  exact Function.apply_update (fun _ => Option.map f) m k u j

theorem view_set {μ : Type} (f : ν → μ) (m : Store κ ν) (k : κ) (v : ν) :
    view f (m.set k v) = Function.update (view f m) k (some (f v)) := view_update f m k (some v)

/-- A store that was written reads as the view written. -/
theorem view_of_set {μ : Type} (f : ν → μ) {m m' : Store κ ν} {k : κ} {v : ν} {u : Option μ}
    (h : m' = m.set k v) (hu : u = some (f v)) : view f m' = Function.update (view f m) k u := by
  rw [h, hu, view_set]

theorem view_remove {μ : Type} (f : ν → μ) (m : Store κ ν) (k : κ) :
    view f (m.remove k) = Function.update (view f m) k none := view_update f m k none

/-- Rewriting a value by what acts on the attribute as `h`. -/
theorem view_update_map {μ : Type} (f : ν → μ) (m : Store κ ν) (k : κ) {g : ν → ν} {h : μ → μ}
    (hg : ∀ v, f (g v) = h (f v)) :
    view f (Function.update m k ((m k).map g)) = Function.update (view f m) k ((view f m k).map h) := by
  have hcomm : f ∘ g = h ∘ f := funext hg
  rw [view_update, Option.map_map, hcomm, ← Option.map_map]
  rfl

/-- Rewriting a value by what keeps the attribute. -/
theorem view_update_keep {μ : Type} (f : ν → μ) (m : Store κ ν) (k : κ) {g : ν → ν} (hg : ∀ v, f (g v) = f v) :
    view f (Function.update m k ((m k).map g)) = view f m := by
  have hid : view f (Function.update m k ((m k).map g)) = Function.update (view f m) k ((view f m k).map id) :=
    view_update_map f m k hg
  rw [hid, Option.map_id]
  exact Function.update_eq_self k (view f m)

/-- A value is replaced by one with the same attribute. -/
theorem view_edit {μ : Type} (f : ν → μ) {m : Store κ ν} {k : κ} {v v' : ν} (h : m k = some v)
    (hf : f v' = f v) : view f (m.set k v') = view f m := by
  rw [view_set, hf, ← view_eq f h]
  exact Function.update_eq_self k (view f m)

/-- Rewriting the value under a key changes nothing iff it rewrites it to itself. -/
theorem update_map_eq_self_iff {m : Store κ ν} {k : κ} {f : ν → ν} :
    Function.update m k ((m k).map f) = m ↔ ∀ v, m k = some v → f v = v := by
  rw [Function.update_eq_self_iff]
  cases m k with
  | none => simp
  | some v => simp

/-! ## Hiding keys -/

/-- The store without the keys that `hidden` says. -/
def hide (hidden : κ → Bool) (m : Store κ ν) : Store κ ν := fun k => if hidden k then none else m k

omit [DecidableEq κ] in
theorem hide_of_hidden {hidden : κ → Bool} (m : Store κ ν) {k : κ} (h : hidden k = true) : hide hidden m k = none :=
  if_pos h

omit [DecidableEq κ] in
theorem hide_of_shown {hidden : κ → Bool} (m : Store κ ν) {k : κ} (h : hidden k = false) : hide hidden m k = m k :=
  if_neg (by rw [h]; exact Bool.false_ne_true)

omit [DecidableEq κ] in
theorem hide_none {hidden : κ → Bool} (m : Store κ ν) (h : ∀ k, hidden k = false) : hide hidden m = m :=
  funext fun k => hide_of_shown m (h k)

omit [DecidableEq κ] in

/-- Hiding twice hides what either hides. -/
theorem hide_hide (hidden hidden' : κ → Bool) (m : Store κ ν) :
    hide hidden (hide hidden' m) = hide (fun k => hidden k || hidden' k) m := by
  funext k
  cases h : hidden k <;> simp [hide, h]

/-- What has been removed may be hidden or not. -/
theorem hide_remove (hidden : κ → Bool) (m : Store κ ν) (k : κ) :
    (hide hidden m).remove k = hide hidden (m.remove k) := by
  funext j
  by_cases hj : j = k
  · subst hj
    simp [hide]
  · simp [hide, remove_ne _ hj]

/-- A key that is written shows again. -/
theorem hide_set (hidden : κ → Bool) (m : Store κ ν) (k : κ) (v : ν) :
    (hide hidden m).set k v = hide (fun j => hidden j && decide (j ∉ [k])) (m.set k v) := by
  funext j
  by_cases hj : j = k
  · subst hj
    simp [hide]
  · simp [hide, set_ne _ _ hj, hj]

theorem hide_set_shown {hidden : κ → Bool} (m : Store κ ν) {k : κ} (v : ν) (h : hidden k = false) :
    hide hidden (m.set k v) = (hide hidden m).set k v := by
  funext j
  by_cases hj : j = k
  · subst hj
    simp [hide, h]
  · simp [hide, set_ne _ _ hj]

/-! ## A store that is part of another -/

/-- What `m` holds, `m'` holds. -/
def Within (m m' : Store κ ν) : Prop := ∀ k v, m k = some v → m' k = some v

/-- Both are written at one key: the rest stays as it was. -/
theorem Within.update_iff {m m' : Store κ ν} (h : Within m m') (k : κ) (u u' : Option ν) :
    Within (Function.update m k u) (Function.update m' k u') ↔ ∀ v, u = some v → u' = some v := by
  constructor
  · intro h' v hv
    have hk := h' k v (by rw [Function.update_self]; exact hv)
    rwa [Function.update_self] at hk
  · intro hk j v hj
    by_cases hne : j = k
    · subst hne
      rw [Function.update_self] at hj ⊢
      exact hk v hj
    · rw [Function.update_of_ne hne] at hj ⊢
      exact h j v hj

/-! ## Two stores that agree -/

variable {μ : Type}

/-- **`m'` mirrors `m`**: its values are `R`-related to those of `m`, and it has one for each live value. -/
structure Mirrors (R : ν → μ → Prop) (Live : ν → Prop) (m : Store κ ν) (m' : Store κ μ) : Prop where
  back  : ∀ k v', m' k = some v' → ∃ v, m k = some v ∧ R v v'
  forth : ∀ k v, m k = some v → Live v → ∃ v', m' k = some v'

variable {R : ν → μ → Prop} {Live : ν → Prop} {m : Store κ ν} {m' : Store κ μ}

omit [DecidableEq κ] in
theorem Mirrors.empty (R : ν → μ → Prop) (Live : ν → Prop) :
    Mirrors R Live (fun _ => none : Store κ ν) (fun _ => none : Store κ μ) := by
  constructor
  · intro k v' h
    cases h
  · intro k v h
    cases h

omit [DecidableEq κ] in
/-- Values may die. -/
theorem Mirrors.mono (h : Mirrors R Live m m') {Live' : ν → Prop} (hle : ∀ v, Live' v → Live v) :
    Mirrors R Live' m m' :=
  ⟨h.back, fun k v hk hv => h.forth k v hk (hle v hv)⟩

/-- Both sides are written with related values. -/
theorem Mirrors.set_both (h : Mirrors R Live m m') (k : κ) {v : ν} {v' : μ} (hR : R v v') :
    Mirrors R Live (m.set k v) (m'.set k v') := by
  constructor
  · intro j u' hj
    rcases set_eq_some.mp hj with ⟨rfl, rfl⟩ | ⟨hk, hj⟩
    · exact ⟨v, set_self m j v, hR⟩
    · rw [set_ne _ _ hk]
      exact h.back j u' hj
  · intro j u hj hu
    rcases set_eq_some.mp hj with ⟨rfl, rfl⟩ | ⟨hk, hj⟩
    · exact ⟨v', set_self m' j v'⟩
    · rw [set_ne _ _ hk]
      exact h.forth j u hj hu

/-- A fresh value that is not live needs no mirror. -/
theorem Mirrors.set_left (h : Mirrors R Live m m') {k : κ} {v : ν} (hk : m k = none) (hdead : ¬ Live v) :
    Mirrors R Live (m.set k v) m' := by
  constructor
  · intro j u' hj
    obtain ⟨u, hu, hR⟩ := h.back j u' hj
    have hne : j ≠ k := by
      rintro rfl
      cases hk.symm.trans hu
    exact ⟨u, by rw [set_ne _ _ hne]; exact hu, hR⟩
  · intro j u hj hu
    rcases set_eq_some.mp hj with ⟨rfl, rfl⟩ | ⟨_, hj⟩
    · exact absurd hu hdead
    · exact h.forth j u hj hu

/-- Both sides drop a value. -/
theorem Mirrors.remove_both (h : Mirrors R Live m m') (k : κ) : Mirrors R Live (m.remove k) (m'.remove k) := by
  constructor
  · intro j u' hj
    obtain ⟨hne, hj⟩ := remove_eq_some.mp hj
    rw [remove_ne _ hne]
    exact h.back j u' hj
  · intro j u hj hu
    obtain ⟨hne, hj⟩ := remove_eq_some.mp hj
    rw [remove_ne _ hne]
    exact h.forth j u hj hu

/-- Only the mirror is written: agreement survives iff the new value is related to the one mirrored. -/
theorem Mirrors.set_right_iff (h : Mirrors R Live m m') (k : κ) (v' : μ) :
    Mirrors R Live m (m'.set k v') ↔ ∃ v, m k = some v ∧ R v v' := by
  constructor
  · intro h'
    exact h'.back k v' (set_self m' k v')
  · rintro ⟨v, hv, hR⟩
    constructor
    · intro j u' hj
      rcases set_eq_some.mp hj with ⟨rfl, rfl⟩ | ⟨_, hj⟩
      · exact ⟨v, hv, hR⟩
      · exact h.back j u' hj
    -- what is live under another key is mirrored as before
    · intro j u hj hu
      by_cases hk : j = k
      · subst hk
        exact ⟨v', set_self m' j v'⟩
      · rw [set_ne _ _ hk]
        exact h.forth j u hj hu

/-- Only the mirror drops a value: agreement survives iff the value mirrored is not live. -/
theorem Mirrors.remove_right_iff (h : Mirrors R Live m m') (k : κ) :
    Mirrors R Live m (m'.remove k) ↔ ∀ v, m k = some v → ¬ Live v := by
  constructor
  · intro h' v hv hlive
    obtain ⟨v', hv'⟩ := h'.forth k v hv hlive
    exact (remove_eq_some.mp hv').1 rfl
  · intro hdead
    constructor
    · intro j u' hj
      exact h.back j u' (remove_eq_some.mp hj).2
    · intro j u hj hu
      by_cases hk : j = k
      · subst hk
        exact absurd hu (hdead u hj)
      · rw [remove_ne _ hk]
        exact h.forth j u hj hu

end Store

/-- A secondary index: the keys listed under each owner. -/
abbrev Index (ο κ : Type) := Store ο (List κ)

namespace Index

variable {ο κ ν : Type} [DecidableEq ο] [DecidableEq κ]

/-- The list stored for an owner (`.unwrap_or(Vec::new(env))`). -/
def keys (idx : Index ο κ) (o : ο) : List κ := (idx o).getD []

/-- Append unless already listed (`if !names.contains(name) { push_back; set }`). -/
def push (idx : Index ο κ) (o : ο) (k : κ) : Index ο κ :=
  if k ∈ idx.keys o then idx else Store.set idx o (idx.keys o ++ [k])

/-- Rebuild the list without the key. -/
def filterOut (idx : Index ο κ) (o : ο) (k : κ) : Index ο κ :=
  Store.set idx o ((idx.keys o).filter (fun j => j ≠ k))

/-- Remove the first occurrence, if there is one. -/
def eraseFirst (idx : Index ο κ) (o : ο) (k : κ) : Index ο κ :=
  if k ∈ idx.keys o then Store.set idx o ((idx.keys o).erase k) else idx

/-- The key pushed is listed, and what was. -/
theorem mem_keys_push {idx : Index ο κ} {o p : ο} {k j : κ} :
    j ∈ (idx.push o k).keys p ↔ j ∈ idx.keys p ∨ (p = o ∧ j = k) := by
  unfold push
  split
  · rename_i hk
    constructor
    · exact Or.inl
    · rintro (h | ⟨rfl, rfl⟩)
      · exact h
      · exact hk
  · by_cases hp : p = o
    · subst hp; simp [keys]
    · simp [keys, Store.set_ne _ _ hp, hp]

/-- A push repeats nothing. -/
theorem nodup_push {idx : Index ο κ} {o p : ο} {k : κ} (h : (idx.keys p).Nodup) :
    ((idx.push o k).keys p).Nodup := by
  unfold push
  split
  · exact h
  · rename_i hk
    by_cases hp : p = o
    · subst hp
      have hnew : ∀ a ∈ idx.keys p, a ≠ k := by
        intro a ha hak
        exact hk (hak ▸ ha)
      simpa [keys, List.nodup_append] using ⟨h, hnew⟩
    · simpa [keys, Store.set_ne _ _ hp] using h

/-- The key filtered out is not listed any more. -/
theorem mem_keys_filterOut {idx : Index ο κ} {o p : ο} {k j : κ} :
    j ∈ (idx.filterOut o k).keys p ↔ j ∈ idx.keys p ∧ ¬ (p = o ∧ j = k) := by
  unfold filterOut
  by_cases hp : p = o
  · subst hp; simp [keys]
  · simp [keys, Store.set_ne _ _ hp, hp]

theorem nodup_filterOut {idx : Index ο κ} {o p : ο} {k : κ} (h : (idx.keys p).Nodup) :
    ((idx.filterOut o k).keys p).Nodup := by
  unfold filterOut
  by_cases hp : p = o
  · subst hp
    unfold keys
    rw [Store.set_self]
    exact h.filter _
  · simpa [keys, Store.set_ne _ _ hp] using h

/-- Nor is one that is erased, if it was listed once. -/
theorem mem_keys_eraseFirst {idx : Index ο κ} {o p : ο} {k j : κ} (h : (idx.keys o).Nodup) :
    j ∈ (idx.eraseFirst o k).keys p ↔ j ∈ idx.keys p ∧ ¬ (p = o ∧ j = k) := by
  unfold eraseFirst
  split
  · by_cases hp : p = o
    · subst hp
      have hlist : keys (Store.set idx p ((idx.keys p).erase k)) p = (idx.keys p).erase k := by simp [keys]
      rw [hlist, h.mem_erase_iff]
      simp [and_comm]
    · simp [keys, Store.set_ne _ _ hp, hp]
  -- the key is not listed, and nothing is erased
  · rename_i hk
    constructor
    · intro hj
      refine ⟨hj, ?_⟩
      rintro ⟨rfl, rfl⟩
      exact hk hj
    · exact And.left

/-- The other lists stay as they are. -/
theorem eraseFirst_ne (idx : Index ο κ) {o p : ο} (k : κ) (h : p ≠ o) : idx.eraseFirst o k p = idx p := by
  unfold eraseFirst
  split
  · exact Store.set_ne _ _ h
  · rfl

/-- The other lists stay as they are. -/
theorem push_ne (idx : Index ο κ) {o p : ο} (k : κ) (h : p ≠ o) : idx.push o k p = idx p := by
  unfold push
  split
  · rfl
  · exact Store.set_ne _ _ h

theorem nodup_eraseFirst {idx : Index ο κ} {o p : ο} {k : κ} (h : (idx.keys p).Nodup) :
    ((idx.eraseFirst o k).keys p).Nodup := by
  unfold eraseFirst
  split
  · by_cases hp : p = o
    · subst hp
      unfold keys
      rw [Store.set_self]
      exact h.erase k
    · simpa [keys, Store.set_ne _ _ hp] using h
  · exact h

omit [DecidableEq κ] in
theorem keys_remove_ne (idx : Index ο κ) {o p : ο} (h : o ≠ p) : keys (Store.remove idx p) o = idx.keys o := by
  unfold keys
  rw [Store.remove_ne _ h]

/-- One owner's list is written and another's dropped. -/
theorem remove_push_ne (idx : Index ο κ) {o p : ο} (k : κ) (h : o ≠ p) :
    Store.remove (idx.push o k) p = push (Store.remove idx p) o k := by
  unfold push
  rw [keys_remove_ne idx h]
  split
  · rfl
  · exact Store.remove_set_ne idx _ h

theorem remove_eraseFirst_ne (idx : Index ο κ) {o p : ο} (k : κ) (h : o ≠ p) :
    Store.remove (idx.eraseFirst o k) p = eraseFirst (Store.remove idx p) o k := by
  unfold eraseFirst
  rw [keys_remove_ne idx h]
  split
  · exact Store.remove_set_ne idx _ h
  · rfl

/-- The index without the keys that `hidden` says. -/
def prune (hidden : κ → Bool) (idx : Index ο κ) : Index ο κ :=
  fun o => (idx o).map (fun ks => ks.filter (fun k => !hidden k))

omit [DecidableEq ο] [DecidableEq κ] in

/-- What is pruned is off every list. -/
theorem keys_prune (hidden : κ → Bool) (idx : Index ο κ) (o : ο) :
    (prune hidden idx).keys o = (idx.keys o).filter (fun k => !hidden k) := by
  unfold keys
  show ((idx o).map (fun ks => ks.filter (fun k => !hidden k))).getD [] = _
  cases idx o <;> rfl

omit [DecidableEq ο] [DecidableEq κ] in
/-- Hiding what is not on a list leaves the list. -/
theorem prune_kept {hidden : κ → Bool} {idx : Index ο κ} {o : ο} (h : ∀ k ∈ idx.keys o, hidden k = false) :
    prune hidden idx o = idx o := by
  unfold keys at h
  show (idx o).map (fun ks => ks.filter (fun k => !hidden k)) = idx o
  cases ho : idx o with
  | none => rfl
  | some ks =>
      rw [ho] at h
      have hkept : ks.filter (fun k => !hidden k) = ks := by
        rw [List.filter_eq_self]
        intro k hk
        rw [h k hk]
        rfl
      rw [Option.map_some, hkept]

omit [DecidableEq ο] [DecidableEq κ] in
theorem prune_prune (hidden hidden' : κ → Bool) (idx : Index ο κ) :
    prune hidden (prune hidden' idx) = prune (fun k => hidden k || hidden' k) idx := by
  funext o
  unfold prune
  cases idx o with
  | none => rfl
  | some ks => simp [List.filter_filter]

omit [DecidableEq κ] in
theorem prune_set (hidden : κ → Bool) (idx : Index ο κ) (o : ο) (ks : List κ) :
    prune hidden (Store.set idx o ks) = Store.set (prune hidden idx) o (ks.filter (fun k => !hidden k)) := by
  funext p
  by_cases hp : p = o
  · subst hp
    simp [prune]
  · simp [prune, Store.set_ne _ _ hp]

/-- A key that shows is pushed all the same. -/
theorem prune_push {hidden : κ → Bool} (idx : Index ο κ) (o : ο) {k : κ} (h : hidden k = false) :
    prune hidden (idx.push o k) = (prune hidden idx).push o k := by
  have hlisted : k ∈ (prune hidden idx).keys o ↔ k ∈ idx.keys o := by
    rw [keys_prune]
    simp [h]
  unfold push
  by_cases hk : k ∈ idx.keys o
  · rw [if_pos hk, if_pos (hlisted.mpr hk)]
  · rw [if_neg hk, if_neg (mt hlisted.mp hk), prune_set, keys_prune]
    simp [List.filter_append, h]

/-- A key that shows is erased all the same. -/
theorem prune_eraseFirst {hidden : κ → Bool} {idx : Index ο κ} {o : ο} {k : κ} (h : hidden k = false)
    (hnodup : (idx.keys o).Nodup) : prune hidden (idx.eraseFirst o k) = (prune hidden idx).eraseFirst o k := by
  have hlisted : k ∈ (prune hidden idx).keys o ↔ k ∈ idx.keys o := by
    rw [keys_prune]
    simp [h]
  unfold eraseFirst
  by_cases hk : k ∈ idx.keys o
  -- no list repeats a key, so erasing one is filtering it out, and filters commute
  · rw [if_pos hk, if_pos (hlisted.mpr hk), prune_set, keys_prune, hnodup.erase_eq_filter,
      List.Nodup.erase_eq_filter (hnodup.filter _), List.filter_filter, List.filter_filter]
    simp only [Bool.and_comm]
  · rw [if_neg hk, if_neg (mt hlisted.mp hk)]

/-- **The index is exact**: owner lists and the store's attribute determine each other. -/
structure Exact (idx : Index ο κ) (m : Store κ ν) (f : ν → ο) : Prop where
  mem_iff : ∀ o k, k ∈ idx.keys o ↔ ∃ v, m k = some v ∧ f v = o
  nodup   : ∀ o, (idx.keys o).Nodup

variable {idx : Index ο κ} {m : Store κ ν} {f : ν → ο}

omit [DecidableEq ο] [DecidableEq κ] in
theorem Exact.empty (f : ν → ο) : Exact (fun _ => none : Index ο κ) (fun _ => none) f :=
  ⟨by simp [keys], by simp [keys]⟩

/-- A key leaves the store and its owner's list. -/
theorem Exact.remove (h : Exact idx m f) {k : κ} {v : ν} (hk : m k = some v) :
    Exact (idx.filterOut (f v) k) (m.remove k) f := by
  refine ⟨?_, fun o => nodup_filterOut (h.nodup o)⟩
  intro o j
  rw [mem_keys_filterOut, h.mem_iff]
  by_cases hj : j = k
  · subst hj
    constructor
    · rintro ⟨⟨u, hu, rfl⟩, hne⟩
      obtain rfl : v = u := Option.some.inj (hk.symm.trans hu)
      exact absurd ⟨rfl, rfl⟩ hne
    · rintro ⟨u, hu, _⟩
      rw [Store.remove_self] at hu
      cases hu
  · simp [Store.remove_ne _ hj, hj]

/-- The same, with the key erased from the list: no list repeats one. -/
theorem Exact.erase (h : Exact idx m f) {k : κ} {v : ν} (hk : m k = some v) :
    Exact (idx.eraseFirst (f v) k) (m.remove k) f := by
  have hfilter := h.remove hk
  constructor
  · intro o j
    rw [mem_keys_eraseFirst (h.nodup (f v)), ← mem_keys_filterOut]
    exact hfilter.mem_iff o j
  · intro o
    exact nodup_eraseFirst (h.nodup o)

/-- An absent key is on no list: erasing it changes nothing. -/
theorem Exact.erase_absent (h : Exact idx m f) {k : κ} (hk : m k = none) (o : ο) : idx.eraseFirst o k = idx := by
  apply if_neg
  rw [h.mem_iff]
  rintro ⟨v, hv, _⟩
  rw [hk] at hv
  cases hv

/-- Erasing a key of an exact index hides it: it is on no other list. -/
theorem Exact.eraseFirst_eq_prune (h : Exact idx m f) {k : κ} {v : ν} (hk : m k = some v) :
    idx.eraseFirst (f v) k = prune (fun j => decide (j = k)) idx := by
  have hlisted : k ∈ idx.keys (f v) := (h.mem_iff (f v) k).mpr ⟨v, hk, rfl⟩
  unfold eraseFirst
  rw [if_pos hlisted]
  funext o
  by_cases ho : o = f v
  · subst ho
    rw [Store.set_self, (h.nodup (f v)).erase_eq_filter]
    unfold keys at *
    cases hlist : idx (f v) with
    | none =>
        rw [hlist] at hlisted
        cases hlisted
    | some ks => simp [prune, hlist, bne, beq_eq_decide]
  -- the key is on no other list, its value having one owner
  · have hother : ∀ j ∈ idx.keys o, decide (j = k) = false := by
      intro j hj
      rw [decide_eq_false_iff_not]
      rintro rfl
      obtain ⟨u, hu, howner⟩ := (h.mem_iff o j).mp hj
      obtain rfl : v = u := Option.some.inj (hk.symm.trans hu)
      exact ho howner.symm
    rw [Store.set_ne _ _ ho, prune_kept hother]

omit [DecidableEq κ] in
/-- The list of an owner of nothing may go. -/
theorem Exact.drop (h : Exact idx m f) {o : ο} (hnone : ∀ k v, m k = some v → f v ≠ o) :
    Exact (Store.remove idx o) m f := by
  constructor
  · intro p k
    by_cases hp : p = o
    · subst hp
      simp only [keys, Store.remove_self, Option.getD_none, List.not_mem_nil, false_iff]
      rintro ⟨v, hv, howner⟩
      exact hnone k v hv howner
    · unfold keys
      rw [Store.remove_ne _ hp]
      exact h.mem_iff p k
  · intro p
    by_cases hp : p = o
    · subst hp
      simp [keys]
    · unfold keys
      rw [Store.remove_ne _ hp]
      exact h.nodup p

/-- A fresh key enters the store and its owner's list. -/
theorem Exact.insert (h : Exact idx m f) {k : κ} (v : ν) (hk : m k = none) :
    Exact (idx.push (f v) k) (m.set k v) f := by
  refine ⟨?_, fun o => nodup_push (h.nodup o)⟩
  intro o j
  rw [mem_keys_push, h.mem_iff]
  by_cases hj : j = k
  · subst hj
    simp [hk, eq_comm]
  · simp [Store.set_ne _ _ hj, hj]

omit [DecidableEq ο] in
/-- A value is replaced by one of the same owner. -/
theorem Exact.edit (h : Exact idx m f) {k : κ} {v v' : ν} (hk : m k = some v) (hf : f v' = f v) :
    Exact idx (m.set k v') f := by
  refine ⟨?_, h.nodup⟩
  intro o j
  rw [h.mem_iff]
  by_cases hj : j = k
  · subst hj
    simp [hk, hf]
  · simp [Store.set_ne _ _ hj]

/-- A value changes owner: removed from one list, pushed on the other (possibly the same one). -/
theorem Exact.move (h : Exact idx m f) {k : κ} {v : ν} (v' : ν) (hk : m k = some v) :
    Exact ((idx.filterOut (f v) k).push (f v') k) (m.set k v') f := by
  -- out of the old owner's list and into the new one's, the key being absent in between
  rw [← Store.set_remove]
  exact (h.remove hk).insert v' (Store.remove_self m k)

end Index

end Soroban
