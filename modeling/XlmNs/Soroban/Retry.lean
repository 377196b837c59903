import Mathlib.Data.List.Basic

/-!
# `Soroban.Retry` — bounded retries

A call answers and leaves the world changed. It is made again, after a pause, as long as it fails with an error that asks
for it, a bounded number of times.

`Retries` relates the world before the first call to the world before a later one, if all the calls in between asked to be
made again. `retry_iff` says what the loop does in its terms; `Retries.invariant` is the rule for what the pauses add up to.
-/

namespace Soroban

variable {ω α ε : Type}

/-- The loop: `left` retries are still allowed after the one numbered `k`. It gives the last answer and its number. -/
def retry (call : ω → Except ε α × ω) (again : ε → Bool) (pause : Nat → ω → ω) :
    Nat → Nat → ω → (Except ε α × Nat) × ω
  | left, k, w =>
      match call w with
      | (.ok a, w')    => ((.ok a, k), w')
      | (.error e, w') =>
          if again e then
            match left with
            | 0        => ((.error e, k), w')
            | left + 1 => retry call again pause left (k + 1) (pause k w')
          else ((.error e, k), w')

/-- From before call `k` to before call `k'`, with every call in between asking to be made again. -/
inductive Retries (call : ω → Except ε α × ω) (again : ε → Bool) (pause : Nat → ω → ω) : Nat → ω → Nat → ω → Prop
  | refl (k : Nat) (w : ω) : Retries call again pause k w k w
  | step {k k' : Nat} {w w₁ w' : ω} {e : ε} (hcall : call w = (.error e, w₁)) (hagain : again e = true)
      (h : Retries call again pause (k + 1) (pause k w₁) k' w') : Retries call again pause k w k' w'

variable {call : ω → Except ε α × ω} {again : ε → Bool} {pause : Nat → ω → ω} {left k k' : Nat} {w w' w'' : ω}

theorem Retries.le (h : Retries call again pause k w k' w') : k ≤ k' := by
  induction h with
  | refl k w => exact Nat.le_refl k
  | step _ _ _ ih => exact Nat.le_of_succ_le ih

/-- **What each failed call and the pause after it keep, the retries keep.** -/
theorem Retries.invariant {I : Nat → ω → Prop}
    (hstep : ∀ k w e w₁, I k w → call w = (.error e, w₁) → I (k + 1) (pause k w₁))
    (h : Retries call again pause k w k' w') (hI : I k w) : I k' w' := by
  induction h with
  | refl k w => exact hI
  | step hcall _ _ ih => exact ih (hstep _ _ _ _ hI hcall)

/-- An answer that ends the loop: anything but an error to try again, and that too when no retry is left. -/
def Ends (again : ε → Bool) (exhausted : Prop) (r : Except ε α) : Prop := ∀ e, r = .error e → again e = true → exhausted

/-- **What the loop does**: it retries as often as it must, and no more than it may. -/
theorem retry_iff {r : Except ε α} :
    retry call again pause left k w = ((r, k'), w'') ↔
      ∃ w', Retries call again pause k w k' w' ∧ call w' = (r, w'') ∧ k' ≤ k + left ∧ Ends again (k' = k + left) r := by
  induction left generalizing k w with
  | zero =>
      have hloop : retry call again pause 0 k w = (((call w).1, k), (call w).2) := by
        unfold retry
        split
        · rename_i h; rw [h]
        · rename_i h
          rw [h, ite_self]
      rw [hloop, Prod.mk.injEq, Prod.mk.injEq]
      constructor
      · rintro ⟨⟨rfl, rfl⟩, rfl⟩
        exact ⟨w, .refl k w, rfl, Nat.le_refl k, fun _ _ _ => rfl⟩
      · rintro ⟨w', h, hcall, hle, _⟩
        cases h with
        | refl =>
            rw [hcall]
            exact ⟨⟨rfl, rfl⟩, rfl⟩
        | step _ _ h => exact absurd (Nat.le_trans h.le hle) (Nat.not_succ_le_self k)
  | succ left ih =>
      -- the one answer after which the loop goes on
      by_cases hagain : ∃ e w₁, call w = (.error e, w₁) ∧ again e = true
      · obtain ⟨e, w₁, hcall, hagain⟩ := hagain
        have hloop : retry call again pause (left + 1) k w = retry call again pause left (k + 1) (pause k w₁) := by
          rw [retry, hcall]
          simp only [hagain, if_true]
        have hbudget : k + 1 + left = k + (left + 1) := by omega
        rw [hloop, ih, hbudget]
        refine exists_congr (fun w' => and_congr_left ?_)
        rintro ⟨hanswer, _, hends⟩
        constructor
        · exact .step hcall hagain
        · intro h
          cases h with
          | refl =>
              obtain ⟨rfl, rfl⟩ := Prod.mk.inj (hcall.symm.trans hanswer)
              exact absurd (hends e rfl hagain) (by omega)
          | step hcall' _ h =>
              obtain ⟨_, rfl⟩ := Prod.mk.inj (hcall.symm.trans hcall')
              exact h
      · have hloop : retry call again pause (left + 1) k w = (((call w).1, k), (call w).2) := by
          unfold retry
          split
          · rename_i h; rw [h]
          · rename_i e w₁ h
            rw [if_neg (fun hyes => hagain ⟨e, w₁, h, hyes⟩), h]
        rw [hloop, Prod.mk.injEq, Prod.mk.injEq]
        constructor
        · rintro ⟨⟨rfl, rfl⟩, rfl⟩
          refine ⟨w, .refl k w, rfl, Nat.le_add_right _ _, ?_⟩
          intro e he hyes
          exact absurd ⟨e, (call w).2, Prod.ext he rfl, hyes⟩ hagain
        · rintro ⟨w', h, hcall, _, _⟩
          cases h with
          | refl =>
              rw [hcall]
              exact ⟨⟨rfl, rfl⟩, rfl⟩
          | step hcall' hyes _ => exact absurd ⟨_, _, hcall', hyes⟩ hagain

end Soroban
