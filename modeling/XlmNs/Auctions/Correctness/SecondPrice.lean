import XlmNs.Auctions.Reference
import XlmNs.Auctions.Vickrey

/-!
# `Auctions.Correctness.SecondPrice` — the price of a sold auction

`vickrey_settlement`: the highest bid wins, the earliest of them if there are several, at the highest amount of the
other bids or the reserve; settling by a stable sort gives the same.

The other bids are counted whoever made them. A winner who bid twice may have set the own price, and `price_iff` says
when: one of the other bids of the winner is above the reserve and above all the bids of the rivals.
-/

namespace XlmNs.Auctions

open Soroban

variable {a a' : Auction} {highest : Bid} {rest : List Bid} {finalized : Settlement} {winner : Address}

/-! ## The reference -/

/-- How a bid of the contract looks to the reference. -/
def rendered (render : Address → String) (bid : Bid) : Reference.Bid := ⟨render bid.bidder, bid.amount, bid.placedAt⟩

/-- An outcome with its winner as text. -/
def renderedSettlement (render : Address → String) (s : Settlement) : Reference.Settlement :=
  ⟨s.winner.map render, s.clearingPrice, s.winningBid, s.settledAt, s.sold⟩

/-- The bids count in the reference: they are positive, in time, and made by somebody with a name. -/
def Counted (render : Address → String) (deadline : UInt64) (bids : List Bid) : Prop :=
  ∀ bid ∈ bids, 0 < bid.amount ∧ bid.placedAt ≤ deadline ∧ Reference.trim (render bid.bidder).toList ≠ []

theorem filter_counted {render : Address → String} {deadline : UInt64} {bids : List Bid}
    (h : Counted render deadline bids) :
    (bids.map (rendered render)).filter (fun bid => bid.isValid && decide (bid.placedAt ≤ deadline))
      = bids.map (rendered render) := by
  rw [List.filter_eq_self]
  intro bid hbid
  obtain ⟨bid, hmem, rfl⟩ := List.mem_map.mp hbid
  obtain ⟨hamount, hplaced, hname⟩ := h bid hmem
  have hvalid : (rendered render bid).isValid = true := by
    unfold Reference.Bid.isValid
    rw [Bool.and_eq_true, Bool.not_eq_true', List.isEmpty_eq_false_iff]
    exact ⟨hname, decide_eq_true hamount⟩
  rw [hvalid, Bool.true_and]
  exact decide_eq_true hplaced

/-- The amount of a bid of the reference. -/
def paidIn (bid : Reference.Bid) : Nat := bid.amount.toNat

theorem reference_order (left right : Reference.Bid) :
    decide (right.amount ≤ left.amount) = descending paidIn left right := by
  unfold descending paidIn
  rw [decide_eq_decide]
  exact UInt64.le_iff_toNat_le

/-- The reference takes the price from the second of the sorted bids. -/
theorem reference_price {others : List Reference.Bid} {reserve : UInt64}
    (h : (others.head?.map paidIn).getD ⊥ = largest paid rest) :
    (others.head?.map fun bid => max bid.amount reserve).getD reserve = secondPrice reserve rest := by
  apply UInt64.toNat_inj.mp
  rw [toNat_secondPrice, ← h]
  cases others.head? with
  | none => exact (max_eq_left (Nat.zero_le _)).symm
  | some bid => exact (toNat_max bid.amount reserve).trans (max_comm _ _)

/-- **The reference gives the same outcome.** -/
theorem reference_eq {render : Address → String} {deadline : UInt64} (settledAt : UInt64)
    (hcounted : Counted render deadline a.bids) (hfirst : FirstMax paid a.bids highest rest) :
    Reference.settleVickrey (a.bids.map (rendered render)) a.reservePrice deadline settledAt
      = some (renderedSettlement render (outcome a.reservePrice settledAt highest rest)) := by
  have horder : (fun left right : Reference.Bid => decide (right.amount ≤ left.amount)) = descending paidIn := by
    funext left right
    exact reference_order left right
  have hfirst' : FirstMax paidIn (a.bids.map (rendered render)) (rendered render highest) (rest.map (rendered render)) :=
    hfirst.map fun _ => rfl
  unfold Reference.settleVickrey
  rw [filter_counted hcounted, horder]
  dsimp only
  cases hsorted : (a.bids.map (rendered render)).mergeSort (descending paidIn) with
  | nil =>
      have hmem := hfirst'.mem
      rw [← (List.mergeSort_perm _ (descending paidIn)).mem_iff, hsorted] at hmem
      cases hmem
  | cons first others =>
      obtain ⟨rest', hleads, hsecond⟩ := mergeSort_firstMax hsorted
      obtain ⟨rfl, rfl⟩ := hleads.unique hfirst'
      have hrest : largest paidIn (rest.map (rendered render)) = largest paid rest := largest_map (fun _ => rfl) rest
      have hprice : _ = secondPrice a.reservePrice rest := reference_price (hsecond.trans hrest)
      dsimp only
      rw [hprice]
      unfold outcome
      by_cases hreserve : highest.amount < a.reservePrice
      · rw [if_pos hreserve]
        exact if_pos hreserve
      · rw [if_neg hreserve]
        exact if_neg hreserve

/-! ## The settlement -/

/-- **The second-price rule**, and the reference follows it too. `highest` is the earliest bid of the highest amount,
    `pre ++ post` are the other bids. -/
def SettlesBySecondPrice (a : Auction) (settledAt : UInt64) : Prop :=
  ∃ pre highest post, a.bids = pre ++ highest :: post ∧ (∀ bid ∈ pre, bid.amount < highest.amount) ∧
    (∀ bid ∈ post, bid.amount ≤ highest.amount) ∧
    ∃ price : UInt64, price.toNat = max a.reservePrice.toNat (largest paid (pre ++ post)) ∧
      settleVickrey a settledAt = some
        (if highest.amount < a.reservePrice then
          { winner := none, clearingPrice := 0, winningBid := highest.amount, settledAt, sold := false }
        else
          { winner := some highest.bidder, clearingPrice := price, winningBid := highest.amount, settledAt
            sold := true }) ∧
      (¬ highest.amount < a.reservePrice → a.reservePrice ≤ price ∧ price ≤ highest.amount) ∧
      ∀ render deadline, Counted render deadline a.bids →
        Reference.settleVickrey (a.bids.map (rendered render)) a.reservePrice deadline settledAt
          = (settleVickrey a settledAt).map (renderedSettlement render)

/-- **Vickrey settlement**, for every auction with bids. -/
theorem vickrey_settlement (hbids : a.bids ≠ []) (settledAt : UInt64) : SettlesBySecondPrice a settledAt := by
  obtain ⟨highest, rest, hfirst⟩ := FirstMax.exists paid hbids
  obtain ⟨pre, post, hsplit, rfl, hpre, hpost⟩ := hfirst
  have hfirst : FirstMax paid a.bids highest (pre ++ post) := ⟨pre, post, hsplit, rfl, hpre, hpost⟩
  refine ⟨pre, highest, post, hsplit, fun bid hbid => paid_lt_iff.mp (hpre bid hbid),
    fun bid hbid => paid_le_iff.mp (hpost bid hbid), secondPrice a.reservePrice (pre ++ post),
    toNat_secondPrice _ _, settleVickrey_eq hfirst settledAt, secondPrice_bounds hfirst, ?_⟩
  intro render deadline hcounted
  rw [reference_eq settledAt hcounted hfirst, settleVickrey_eq hfirst settledAt]
  rfl

/-! ## Whose bids set the price -/

/-- The bids of everybody else. -/
def rivals (winner : Address) (bids : List Bid) : List Bid := bids.filter fun bid => decide (bid.bidder ≠ winner)

theorem mem_rivals {bids : List Bid} {bid : Bid} : bid ∈ rivals winner bids ↔ bid ∈ bids ∧ bid.bidder ≠ winner := by
  unfold rivals
  rw [List.mem_filter, decide_eq_true_iff]

/-- **The price is set by the rivals**: the reserve, or the highest bid of anybody but the winner. -/
def PriceSetByRivals (a : Auction) (winner : Address) (finalized : Settlement) : Prop :=
  finalized.clearingPrice.toNat = max a.reservePrice.toNat (largest paid (rivals winner a.bids))

/-- None of the winner's other bids is above both the reserve and all bids of the rivals. -/
def OthersBelow (a : Auction) (winner : Address) (rest : List Bid) : Prop :=
  ∀ bid ∈ rest, bid.bidder = winner →
    paid bid ≤ max a.reservePrice.toNat (largest paid (rivals winner a.bids))

/-- A sold auction is sold at the second price to the highest bidder. -/
theorem sold_eq {settledAt : UInt64} (h : settleVickrey a settledAt = some finalized)
    (hwinner : finalized.winner = some winner) (hfirst : FirstMax paid a.bids highest rest) :
    highest.bidder = winner ∧ highest.amount = finalized.winningBid ∧
      finalized.clearingPrice = secondPrice a.reservePrice rest := by
  obtain rfl := Option.some.inj ((settleVickrey_eq hfirst settledAt).symm.trans h)
  unfold outcome at hwinner ⊢
  by_cases hreserve : highest.amount < a.reservePrice
  · rw [if_pos hreserve] at hwinner
    cases hwinner
  · rw [if_neg hreserve] at hwinner ⊢
    exact ⟨Option.some.inj hwinner, rfl, rfl⟩

/-- The rivals' bids are among the others, the winning bid being the winner's. -/
theorem mem_rivals_rest (hfirst : FirstMax paid a.bids highest rest) (hhighest : highest.bidder = winner) {bid : Bid} :
    bid ∈ rivals winner a.bids ↔ bid ∈ rest ∧ bid.bidder ≠ winner := by
  rw [mem_rivals, hfirst.perm.mem_iff, List.mem_cons]
  constructor
  · rintro ⟨rfl | hmem, hne⟩
    · exact absurd hhighest hne
    · exact ⟨hmem, hne⟩
  · exact fun h => ⟨Or.inr h.1, h.2⟩

/-- **When the rivals set the price.** -/
theorem priceSetByRivals_iff (hfirst : FirstMax paid a.bids highest rest) (hhighest : highest.bidder = winner)
    (hprice : finalized.clearingPrice = secondPrice a.reservePrice rest) :
    PriceSetByRivals a winner finalized ↔ OthersBelow a winner rest := by
  unfold PriceSetByRivals
  rw [hprice, toNat_secondPrice]
  constructor
  · intro hsame bid hbid _
    rw [← hsame]
    exact (le_largest hbid).trans (le_max_right _ _)
  · intro hbelow
    apply le_antisymm
    · refine max_le (le_max_left _ _) (largest_le_iff.mpr ?_)
      intro bid hbid
      by_cases hbidder : bid.bidder = winner
      · exact hbelow bid hbid hbidder
      · exact (le_largest ((mem_rivals_rest hfirst hhighest).mpr ⟨hbid, hbidder⟩)).trans (le_max_right _ _)
    · refine max_le_max le_rfl (largest_le_iff.mpr ?_)
      intro bid hbid
      exact le_largest ((mem_rivals_rest hfirst hhighest).mp hbid).1

/-- **The price is set by the remaining bids**, the winner's own among them. It is what the rivals alone would set iff
    none of the winner's other bids is above that, and then those bids may change without changing it. -/
theorem price_set_by_remaining_bids {settledAt : UInt64} (h : settleVickrey a settledAt = some finalized)
    (hwinner : finalized.winner = some winner) :
    ∃ highest rest, FirstMax paid a.bids highest rest ∧ highest.bidder = winner ∧
      highest.amount = finalized.winningBid ∧
      finalized.clearingPrice.toNat = max a.reservePrice.toNat (largest paid rest) ∧
      (PriceSetByRivals a winner finalized ↔ OthersBelow a winner rest) ∧
      ∀ a' settledAt' finalized' highest' rest', settleVickrey a' settledAt' = some finalized' →
        finalized'.winner = some winner → FirstMax paid a'.bids highest' rest' → a'.reservePrice = a.reservePrice →
        rivals winner a'.bids = rivals winner a.bids → OthersBelow a winner rest → OthersBelow a' winner rest' →
        finalized'.clearingPrice = finalized.clearingPrice := by
  have hbids : a.bids ≠ [] := by
    intro hnil
    rw [settleVickrey_none_iff.mpr hnil] at h
    cases h
  obtain ⟨highest, rest, hfirst⟩ := FirstMax.exists paid hbids
  obtain ⟨hhighest, hamount, hprice⟩ := sold_eq h hwinner hfirst
  have hiff := priceSetByRivals_iff hfirst hhighest hprice
  refine ⟨highest, rest, hfirst, hhighest, hamount, ?_, hiff, ?_⟩
  · rw [hprice, toNat_secondPrice]
  · intro a' settledAt' finalized' highest' rest' h' hwinner' hfirst' hreserve hrivals hbelow hbelow'
    obtain ⟨hhighest', _, hprice'⟩ := sold_eq h' hwinner' hfirst'
    have hset : PriceSetByRivals a winner finalized := hiff.mpr hbelow
    have hset' : PriceSetByRivals a' winner finalized' := (priceSetByRivals_iff hfirst' hhighest' hprice').mpr hbelow'
    unfold PriceSetByRivals at hset hset'
    rw [hreserve, hrivals] at hset'
    exact UInt64.toNat_inj.mp (hset'.trans hset.symm)

/-! ## A winner who bid twice -/

namespace BidTwice

open Cast

/-- An auction with these bids. -/
def auctionOf (bids : List Bid) : Auction where
  name         := ascii "vip.xlm"
  reservePrice := 100
  startsAt     := 10
  endsAt       := 20
  bids         := bids
  asset        := usdc
  treasury     := treasury

/-- Alice bid once. -/
def once : Auction := auctionOf [⟨bob, 200, 11⟩, ⟨alice, 500, 12⟩]

/-- She bid before Bob, too. -/
def twice : Auction := auctionOf [⟨alice, 400, 11⟩, ⟨bob, 200, 11⟩, ⟨alice, 500, 12⟩]

theorem twice_settles : SettlesBySecondPrice twice 21 := vickrey_settlement (by decide) 21

/-- Alice raised her bid, and pays the one she made before. -/
theorem own_bid_sets_price :
    settleVickrey twice 21 = some ⟨some alice, 400, 500, 21, true⟩ ∧
      ¬ PriceSetByRivals twice alice ⟨some alice, 400, 500, 21, true⟩ ∧
      settleVickrey once 21 = some ⟨some alice, 200, 500, 21, true⟩ ∧
      rivals alice once.bids = rivals alice twice.bids := by
  refine ⟨by decide, ?_, by decide, by decide⟩
  unfold PriceSetByRivals
  decide

theorem once_price :
    ∃ highest rest, FirstMax paid once.bids highest rest ∧ highest.bidder = alice ∧ highest.amount = 500 ∧
      (200 : UInt64).toNat = max once.reservePrice.toNat (largest paid rest) ∧
      (PriceSetByRivals once alice ⟨some alice, 200, 500, 21, true⟩ ↔ OthersBelow once alice rest) := by
  have hsettled : settleVickrey once 21 = some ⟨some alice, 200, 500, 21, true⟩ := by decide
  obtain ⟨highest, rest, hfirst, hhighest, hamount, hprice, hiff, _⟩ := price_set_by_remaining_bids hsettled rfl
  exact ⟨highest, rest, hfirst, hhighest, hamount, hprice, hiff⟩

end BidTwice

end XlmNs.Auctions
