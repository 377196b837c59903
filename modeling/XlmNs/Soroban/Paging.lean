import Mathlib.Algebra.Order.Group.Nat
import Mathlib.Data.List.Basic

/-!
# `Soroban.Paging` — pages of a list, and filtering before or after cutting

`page offset limit l` is what a query returns of a list that is read in pages.

## Contents
- **Growing a page.** `page_snoc`, `page_append_of_full`: what one more element does to a page.
- **Successive pages.** `take_succ_mul`: the pages at `0, k, 2k, …` are the beginning of the list, and `exists_pages`
  of them all of it.
- **Cutting before filtering.** `filter_take_eq_iff`: when the first matches of a list are the matches of its beginning.
-/

namespace Soroban

variable {α : Type} {l l' : List α} {offset limit : Nat} {x : α}

/-! ## Growing a page -/

/-- At most `limit` elements, from the position `offset` on. -/
def page (offset limit : Nat) (l : List α) : List α := (l.drop offset).take limit

@[simp] theorem page_nil (offset limit : Nat) : page offset limit ([] : List α) = [] := by
  simp [page]

@[simp] theorem page_zero (limit : Nat) (l : List α) : page 0 limit l = l.take limit := rfl

theorem length_page (offset limit : Nat) (l : List α) : (page offset limit l).length = min limit (l.length - offset) := by
  rw [page, List.length_take, List.length_drop]

/-- A longer page has the next element too. -/
theorem page_succ {n : Nat} (h : l[offset + n]? = some x) : page offset (n + 1) l = page offset n l ++ [x] := by
  rw [page, page, List.take_add_one, List.getElem?_drop, h]
  rfl

/-- A page that reaches the end has all that is left. -/
theorem page_eq_of_le {n m : Nat} (hn : l.length ≤ offset + n) (hm : l.length ≤ offset + m) :
    page offset n l = page offset m l := by
  have hdrop : ∀ k, l.length ≤ offset + k → (l.drop offset).length ≤ k := by
    intro k hk
    rw [List.length_drop]
    omega
  rw [page, page, List.take_of_length_le (hdrop n hn), List.take_of_length_le (hdrop m hm)]

/-- One more element goes on the page if the page has begun and is not full. -/
theorem page_snoc (offset limit : Nat) (l : List α) (x : α) :
    page offset limit (l ++ [x]) =
      if offset ≤ l.length ∧ (page offset limit l).length < limit then page offset limit l ++ [x]
      else page offset limit l := by
  have hlength := length_page offset limit l
  by_cases hbegun : offset ≤ l.length
  · have hdrop : (l ++ [x]).drop offset = l.drop offset ++ [x] := List.drop_append_of_le_length hbegun
    by_cases hroom : (page offset limit l).length < limit
    · have hfits : (l.drop offset).length < limit := by
        rw [List.length_drop]
        omega
      rw [if_pos ⟨hbegun, hroom⟩, page, page, hdrop, List.take_of_length_le hfits.le, List.take_of_length_le]
      rw [List.length_append, List.length_singleton]
      exact hfits
    · have hfull : limit ≤ (l.drop offset).length := by
        rw [List.length_drop]
        omega
      rw [if_neg (fun h => hroom h.2), page, page, hdrop, List.take_append_of_le_length hfull]
  · have hlate : (l ++ [x]).length ≤ offset := by
      rw [List.length_append, List.length_singleton]
      omega
    rw [if_neg (fun h => hbegun h.1), page, page, List.drop_eq_nil_of_le hlate,
      List.drop_eq_nil_of_le (by omega : l.length ≤ offset)]

/-- A full page stays as it is. -/
theorem page_append_of_full (l' : List α) (h : limit ≤ (page offset limit l).length) :
    page offset limit (l ++ l') = page offset limit l := by
  rcases Nat.eq_zero_or_pos limit with rfl | hpos
  · simp [page]
  · rw [length_page] at h
    have hbegun : offset ≤ l.length := by omega
    have hfull : limit ≤ (l.drop offset).length := by
      rw [List.length_drop]
      omega
    rw [page, page, List.drop_append_of_le_length hbegun, List.take_append_of_le_length hfull]

/-! ## Successive pages -/

/-- **The next page continues the pages before it.** -/
theorem take_succ_mul (k n : Nat) (l : List α) : l.take ((n + 1) * k) = l.take (n * k) ++ page (n * k) k l := by
  rw [Nat.succ_mul, List.take_add, page]

/-- Pages of size `k` up to some number reach every position, none of them starting behind the end. -/
theorem exists_pages {k : Nat} (hk : 0 < k) (m : Nat) : ∃ n, m ≤ n * k ∧ ∀ j < n, j * k < m := by
  refine ⟨(m + k - 1) / k, ?_, ?_⟩
  · have hmod := Nat.div_add_mod (m + k - 1) k
    have hlt := Nat.mod_lt (m + k - 1) hk
    rw [Nat.mul_comm] at hmod
    omega
  · intro j hj
    have hle : (j + 1) * k ≤ m + k - 1 := (Nat.le_div_iff_mul_le hk).mp hj
    rw [Nat.succ_mul] at hle
    omega

/-! ## Cutting before filtering -/

/-- **The first `n` matches of a list are the matches among its first `n` elements** iff no match comes later or all of
    these match. -/
theorem filter_take_eq_iff (p : α → Bool) (n : Nat) (l : List α) :
    (l.filter p).take n = (l.take n).filter p ↔ (∀ x ∈ l.drop n, p x = false) ∨ ∀ x ∈ l.take n, p x = true := by
  have hsplit : l.filter p = (l.take n).filter p ++ (l.drop n).filter p := by
    rw [← List.filter_append, List.take_append_drop]
  have hle : ((l.take n).filter p).length ≤ n :=
    (List.length_filter_le p _).trans ((List.length_take_le n l).trans le_rfl)
  constructor
  · intro h
    by_cases hall : ∀ x ∈ l.take n, p x = true
    · exact Or.inr hall
    · -- there is room for more matches, and none came
      left
      have hshort : ((l.take n).filter p).length < (l.take n).length := by
        apply lt_of_le_of_ne (List.length_filter_le p _)
        intro heq
        exact hall (List.length_filter_eq_length_iff.mp heq)
      have hroom : ((l.take n).filter p).length < n := lt_of_lt_of_le hshort (List.length_take_le n l)
      rw [hsplit, List.take_append, List.take_of_length_le hle] at h
      have hnil : ((l.drop n).filter p).take (n - ((l.take n).filter p).length) = [] :=
        List.append_right_eq_self.mp h
      rcases List.take_eq_nil_iff.mp hnil with hzero | hnone
      · omega
      · intro x hx
        rw [← Bool.not_eq_true]
        exact List.filter_eq_nil_iff.mp hnone x hx
  · rintro (hnone | hall)
    · have hlate : (l.drop n).filter p = [] := by
        rw [List.filter_eq_nil_iff]
        intro x hx
        rw [hnone x hx]
        exact Bool.false_ne_true
      rw [hsplit, hlate, List.append_nil, List.take_of_length_le hle]
    · rw [List.filter_eq_self.mpr hall] at hsplit ⊢
      rcases Nat.lt_or_ge l.length n with hshort | hlong
      · rw [hsplit, List.drop_eq_nil_of_le hshort.le, List.filter_nil, List.append_nil, List.take_take, min_self]
      · rw [hsplit, List.take_append_of_le_length, List.take_take, min_self]
        rw [List.length_take]
        omega

end Soroban
