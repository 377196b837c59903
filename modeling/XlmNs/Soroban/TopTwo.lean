import Mathlib.Data.List.Perm.Basic
import Mathlib.Order.BoundedOrder.Lattice
import Mathlib.Order.MinMax

/-!
# `Soroban.TopTwo` — the first largest element of a list, and the largest of the others

`FirstMax f l x rest` says that `x` is the earliest element of `l` with the largest `f`, and `rest` what is left of `l`
without it. There is exactly one such pair (`FirstMax.unique`, `FirstMax.exists`). A pass over the list finds it by
`FirstMax.snoc_of_lt` and `FirstMax.snoc_of_le`; a stable sort, largest first, puts `x` in front and behind it the
largest of the others (`mergeSort_firstMax`).
-/

namespace Soroban

variable {α β κ : Type} [LinearOrder κ] {f : α → κ} {l rest rest' : List α} {x y : α}

/-! ## The first largest -/

/-- **`x` is the first largest of `l`**, `rest` are the others. -/
def FirstMax (f : α → κ) (l : List α) (x : α) (rest : List α) : Prop :=
  ∃ pre post, l = pre ++ x :: post ∧ rest = pre ++ post ∧ (∀ y ∈ pre, f y < f x) ∧ ∀ y ∈ post, f y ≤ f x

theorem FirstMax.single (f : α → κ) (x : α) : FirstMax f [x] x [] :=
  ⟨[], [], rfl, rfl, fun _ h => (nomatch h), fun _ h => (nomatch h)⟩

theorem FirstMax.perm (h : FirstMax f l x rest) : l.Perm (x :: rest) := by
  obtain ⟨pre, post, rfl, rfl, _, _⟩ := h
  exact List.perm_middle

theorem FirstMax.mem (h : FirstMax f l x rest) : x ∈ l := h.perm.mem_iff.mpr List.mem_cons_self

theorem FirstMax.rest_le (h : FirstMax f l x rest) : ∀ y ∈ rest, f y ≤ f x := by
  obtain ⟨pre, post, rfl, rfl, hpre, hpost⟩ := h
  intro y hy
  rcases List.mem_append.mp hy with hy | hy
  · exact le_of_lt (hpre y hy)
  · exact hpost y hy

theorem FirstMax.le (h : FirstMax f l x rest) : ∀ y ∈ l, f y ≤ f x := by
  intro y hy
  rcases List.mem_cons.mp (h.perm.mem_iff.mp hy) with rfl | hy
  · exact le_rfl
  · exact h.rest_le y hy

/-- A larger one comes: it takes the lead. -/
theorem FirstMax.snoc_of_lt (h : FirstMax f l x rest) (hy : f x < f y) : FirstMax f (l ++ [y]) y l :=
  ⟨l, [], rfl, (List.append_nil l).symm, fun z hz => lt_of_le_of_lt (h.le z hz) hy, fun _ hz => nomatch hz⟩

/-- Another one comes: the leader stays. -/
theorem FirstMax.snoc_of_le (h : FirstMax f l x rest) (hy : f y ≤ f x) : FirstMax f (l ++ [y]) x (rest ++ [y]) := by
  obtain ⟨pre, post, rfl, rfl, hpre, hpost⟩ := h
  refine ⟨pre, post ++ [y], by simp, by simp, hpre, ?_⟩
  intro z hz
  rcases List.mem_append.mp hz with hz | hz
  · exact hpost z hz
  · obtain rfl := List.mem_singleton.mp hz
    exact hy

/-- One more in front leads if it is not below the leader. -/
theorem FirstMax.cons_of_le (h : ∀ y ∈ l, f y ≤ f x) : FirstMax f (x :: l) x l :=
  ⟨[], l, rfl, rfl, fun _ hy => (nomatch hy), h⟩

theorem FirstMax.cons_of_lt (h : FirstMax f l x rest) (hy : f y < f x) : FirstMax f (y :: l) x (y :: rest) := by
  obtain ⟨pre, post, rfl, rfl, hpre, hpost⟩ := h
  refine ⟨y :: pre, post, rfl, rfl, ?_, hpost⟩
  intro z hz
  rcases List.mem_cons.mp hz with rfl | hz
  · exact hy
  · exact hpre z hz

theorem FirstMax.exists (f : α → κ) (hl : l ≠ []) : ∃ x rest, FirstMax f l x rest := by
  induction l with
  | nil => exact absurd rfl hl
  | cons y l ih =>
      by_cases hnil : l = []
      · subst hnil
        exact ⟨y, [], .single f y⟩
      · obtain ⟨x, rest, h⟩ := ih hnil
        rcases lt_or_ge (f y) (f x) with hy | hy
        · exact ⟨x, y :: rest, h.cons_of_lt hy⟩
        · exact ⟨y, l, .cons_of_le fun z hz => (h.le z hz).trans hy⟩

/-- **There is one first largest.** -/
theorem FirstMax.unique (h : FirstMax f l x rest) (h' : FirstMax f l y rest') : x = y ∧ rest = rest' := by
  induction l generalizing rest rest' with
  | nil => cases h.mem
  | cons z l ih =>
      obtain ⟨pre, post, hl, rfl, hpre, hpost⟩ := h
      obtain ⟨pre', post', hl', rfl, hpre', hpost'⟩ := h'
      cases pre with
      | nil =>
          obtain ⟨rfl, rfl⟩ := List.cons.inj hl
          cases pre' with
          | nil =>
              obtain ⟨rfl, rfl⟩ := List.cons.inj hl'
              exact ⟨rfl, rfl⟩
          | cons z' pre' =>
              -- the second leader is strictly above the first, which is the largest
              obtain ⟨rfl, rfl⟩ := List.cons.inj hl'
              have hle := hpost y (List.mem_append_right _ List.mem_cons_self)
              exact absurd hle (not_le_of_gt (hpre' z List.mem_cons_self))
      | cons z' pre =>
          obtain ⟨rfl, rfl⟩ := List.cons.inj hl
          cases pre' with
          | nil =>
              obtain ⟨rfl, rfl⟩ := List.cons.inj hl'
              have hle := hpost' x (List.mem_append_right _ List.mem_cons_self)
              exact absurd hle (not_le_of_gt (hpre z List.mem_cons_self))
          | cons z'' pre' =>
              obtain ⟨rfl, htail⟩ := List.cons.inj hl'
              have hleft : FirstMax f (pre ++ x :: post) x (pre ++ post) :=
                ⟨pre, post, rfl, rfl, fun w hw => hpre w (List.mem_cons_of_mem _ hw), hpost⟩
              have hright : FirstMax f (pre ++ x :: post) y (pre' ++ post') :=
                ⟨pre', post', htail, rfl, fun w hw => hpre' w (List.mem_cons_of_mem _ hw), hpost'⟩
              obtain ⟨rfl, hrest⟩ := ih hleft hright
              exact ⟨rfl, congrArg (z :: ·) hrest⟩

/-- Renaming that keeps `f` keeps the first largest. -/
theorem FirstMax.map {g : α → β} {f' : β → κ} (hg : ∀ z, f' (g z) = f z) (h : FirstMax f l x rest) :
    FirstMax f' (l.map g) (g x) (rest.map g) := by
  obtain ⟨pre, post, rfl, rfl, hpre, hpost⟩ := h
  refine ⟨pre.map g, post.map g, by simp, by simp, ?_, ?_⟩
  · intro y hy
    obtain ⟨z, hz, rfl⟩ := List.mem_map.mp hy
    rw [hg, hg]
    exact hpre z hz
  · intro y hy
    obtain ⟨z, hz, rfl⟩ := List.mem_map.mp hy
    rw [hg, hg]
    exact hpost z hz

/-! ## The largest value -/

variable [OrderBot κ]

/-- The largest `f` on a list. -/
def largest (f : α → κ) (l : List α) : κ := l.foldr (fun x k => max (f x) k) ⊥

theorem largest_le_iff {k : κ} : largest f l ≤ k ↔ ∀ x ∈ l, f x ≤ k := by
  induction l with
  | nil => exact iff_of_true bot_le fun _ h => nomatch h
  | cons y l ih => rw [largest, List.foldr_cons, max_le_iff, List.forall_mem_cons, ← ih]; rfl

theorem le_largest (h : x ∈ l) : f x ≤ largest f l := largest_le_iff.mp le_rfl x h

theorem largest_eq_of_mem_iff {l' : List α} (h : ∀ x, x ∈ l ↔ x ∈ l') : largest f l = largest f l' := by
  apply le_antisymm <;> rw [largest_le_iff]
  · exact fun x hx => le_largest ((h x).mp hx)
  · exact fun x hx => le_largest ((h x).mpr hx)

theorem largest_map {g : α → β} {f' : β → κ} (hg : ∀ z, f' (g z) = f z) (l : List α) :
    largest f' (l.map g) = largest f l := by
  apply le_antisymm <;> rw [largest_le_iff]
  · intro y hy
    obtain ⟨z, hz, rfl⟩ := List.mem_map.mp hy
    rw [hg]
    exact le_largest hz
  · intro z hz
    rw [← hg]
    exact le_largest (List.mem_map_of_mem hz)

theorem largest_append (l l' : List α) : largest f (l ++ l') = max (largest f l) (largest f l') := by
  apply le_antisymm
  · rw [largest_le_iff]
    intro x hx
    rcases List.mem_append.mp hx with hx | hx
    · exact (le_largest hx).trans (le_max_left _ _)
    · exact (le_largest hx).trans (le_max_right _ _)
  · rw [max_le_iff, largest_le_iff, largest_le_iff]
    exact ⟨fun x hx => le_largest (List.mem_append_left _ hx), fun x hx => le_largest (List.mem_append_right _ hx)⟩

theorem largest_cons (x : α) (l : List α) : largest f (x :: l) = max (f x) (largest f l) := rfl

theorem largest_snoc (l : List α) (x : α) : largest f (l ++ [x]) = max (largest f l) (f x) := by
  rw [largest_append, largest_cons]
  exact congrArg _ (max_eq_left bot_le)

/-- What the first largest beats, it beats with the largest value. -/
theorem FirstMax.largest_eq (h : FirstMax f l x rest) : largest f l = f x :=
  le_antisymm (largest_le_iff.mpr h.le) (le_largest h.mem)

theorem FirstMax.largest_rest_le (h : FirstMax f l x rest) : largest f rest ≤ f x := largest_le_iff.mpr h.rest_le

/-- **More elements, no smaller two.** -/
theorem FirstMax.largest_mono {l' : List α} {x' : α} (h : FirstMax f l x rest) (h' : FirstMax f l' x' rest')
    (hsub : List.Subperm l l') : f x ≤ f x' ∧ largest f rest ≤ largest f rest' := by
  classical
  have hx : x ∈ x' :: rest' := h'.perm.mem_iff.mp (hsub.subset h.mem)
  refine ⟨h'.le x (hsub.subset h.mem), ?_⟩
  by_cases hsame : x = x'
  · subst hsame
    have hcons : List.Subperm (x :: rest) (x :: rest') := (h.perm.symm.subperm.trans hsub).trans h'.perm.subperm
    have hrest : List.Subperm rest rest' := (List.subperm_cons x).mp hcons
    exact largest_le_iff.mpr fun y hy => le_largest (hrest.subset hy)
  -- the old leader is behind the new one, with all that was behind it
  · have hbehind : x ∈ rest' := (List.mem_cons.mp hx).resolve_left hsame
    exact h.largest_rest_le.trans (le_largest hbehind)

/-! ## A stable sort -/

omit [OrderBot κ]

/-- Largest first. -/
def descending (f : α → κ) (a b : α) : Bool := decide (f b ≤ f a)

theorem descending_trans (f : α → κ) (a b c : α) (hab : descending f a b = true) (hbc : descending f b c = true) :
    descending f a c = true :=
  decide_eq_true ((of_decide_eq_true hbc).trans (of_decide_eq_true hab))

theorem descending_total (f : α → κ) (a b : α) : (descending f a b || descending f b a) = true := by
  rw [Bool.or_eq_true]
  exact (le_total (f b) (f a)).imp decide_eq_true decide_eq_true

theorem mergeSort_descending (f : α → κ) (l : List α) : (l.mergeSort (descending f)).Pairwise fun a b => f b ≤ f a :=
  (List.pairwise_mergeSort (descending_trans f) (descending_total f) l).imp of_decide_eq_true

/-- **A stable sort puts the first largest in front.** -/
theorem mergeSort_head {sorted : List α} (h : l.mergeSort (descending f) = x :: sorted) :
    ∃ rest, FirstMax f l x rest := by
  induction l generalizing x sorted with
  | nil =>
      rw [List.mergeSort_nil] at h
      cases h
  | cons y l ih =>
      obtain ⟨l₁, l₂, hcons, htail, hbefore⟩ := List.mergeSort_cons (descending_trans f) (descending_total f) y l
      rw [hcons] at h
      cases l₁ with
      | nil =>
          obtain ⟨rfl, rfl⟩ := List.cons.inj h
          -- sorted, and `y` comes first
          have hsorted := mergeSort_descending f (y :: l)
          rw [hcons] at hsorted
          refine ⟨l, .cons_of_le fun z hz => ?_⟩
          apply (List.pairwise_cons.mp hsorted).1
          have hmem : z ∈ l.mergeSort (descending f) := (List.mergeSort_perm l _).mem_iff.mpr hz
          rw [htail] at hmem
          exact hmem
      | cons z l₁ =>
          obtain ⟨rfl, _⟩ := List.cons.inj h
          obtain ⟨rest, hrest⟩ := ih htail
          have hlt : f y < f z := by
            have hnot := hbefore z List.mem_cons_self
            rw [descending, Bool.not_eq_true', decide_eq_false_iff_not] at hnot
            exact not_le.mp hnot
          exact ⟨y :: rest, hrest.cons_of_lt hlt⟩

/-- Behind it comes the largest of the others. -/
theorem mergeSort_firstMax [OrderBot κ] {sorted : List α} (h : l.mergeSort (descending f) = x :: sorted) :
    ∃ rest, FirstMax f l x rest ∧ (sorted.head?.map f).getD ⊥ = largest f rest := by
  obtain ⟨rest, hfirst⟩ := mergeSort_head h
  refine ⟨rest, hfirst, ?_⟩
  have hperm : sorted.Perm rest := by
    have hall : (x :: sorted).Perm (x :: rest) := (h ▸ List.mergeSort_perm l (descending f)).trans hfirst.perm
    exact hall.cons_inv
  have hsorted := mergeSort_descending f l
  rw [h] at hsorted
  rw [← largest_eq_of_mem_iff fun y => hperm.mem_iff]
  cases sorted with
  | nil => rfl
  | cons y sorted =>
      have hall := (List.pairwise_cons.mp (List.pairwise_cons.mp hsorted).2).1
      exact (FirstMax.cons_of_le hall).largest_eq.symm

end Soroban
