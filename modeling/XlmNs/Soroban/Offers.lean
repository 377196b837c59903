import Mathlib.Algebra.Order.Group.Defs

/-!
# `Soroban.Offers` — one party against a price it has no say in

What a party reports decides whether it gets something; what it pays for it does not depend on the report. Then it does
best to report what the thing is worth to it (`Offer.truthful`), whatever the others do.
-/

namespace Soroban

variable {ρ κ : Type} [AddCommGroup κ] [LinearOrder κ] [IsOrderedAddMonoid κ] {worth : ρ → κ}

/-- **A take-it-or-leave-it offer**: reports above the price win, and none below it does. -/
structure Offer (worth : ρ → κ) where
  price : κ
  wins  : ρ → Bool
  above : ∀ r, price < worth r → wins r = true
  below : ∀ r, wins r = true → price ≤ worth r

/-- What a report is good for. -/
def Offer.payoff (o : Offer worth) (value : κ) (r : ρ) : κ := if o.wins r then value - o.price else 0

/-- Nobody who reports the truth loses by it. -/
theorem Offer.payoff_nonneg (o : Offer worth) (truth : ρ) : 0 ≤ o.payoff (worth truth) truth := by
  unfold payoff
  split
  · rename_i hwins
    exact sub_nonneg.mpr (o.below truth hwins)
  · exact le_rfl

/-- **No report is better than the truth.** -/
theorem Offer.truthful (o : Offer worth) (truth r : ρ) : o.payoff (worth truth) r ≤ o.payoff (worth truth) truth := by
  rcases lt_or_ge o.price (worth truth) with hlt | hge
  -- worth more than the price: the truth wins
  · have hwins := o.above truth hlt
    have htruth : o.payoff (worth truth) truth = worth truth - o.price := by rw [payoff, if_pos hwins]
    rw [htruth, payoff]
    split
    · exact le_rfl
    · exact (sub_pos.mpr hlt).le
  -- not worth it: whoever wins loses
  · refine le_trans ?_ (o.payoff_nonneg truth)
    unfold payoff
    split
    · exact sub_nonpos.mpr hge
    · exact le_rfl

end Soroban
