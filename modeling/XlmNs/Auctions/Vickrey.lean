import XlmNs.Auctions.Contract
import XlmNs.Soroban.TopTwo
import XlmNs.Soroban.U64

/-!
# `Auctions.Vickrey` — what `settle_vickrey` computes

The loop keeps the highest bid so far and the second-highest amount. `scan_leads` is its invariant: the bid is the first
of the highest, the amount the highest of the other bids. `settleVickrey_eq` is the settlement in these terms
(`outcome`).
-/

namespace XlmNs.Auctions

open Soroban

variable {a : Auction} {nowUnix : UInt64} {highest : Bid} {rest : List Bid}

/-- The amount of a bid. -/
def paid (bid : Bid) : Nat := bid.amount.toNat

theorem paid_lt_iff {b c : Bid} : paid b < paid c ↔ b.amount < c.amount := UInt64.lt_iff_toNat_lt.symm

theorem paid_le_iff {b c : Bid} : paid b ≤ paid c ↔ b.amount ≤ c.amount := UInt64.le_iff_toNat_le.symm

/-! ## The loop -/

/-- The loop state is right about the bids seen: none yet, or the first of the highest and the highest of the
    others. -/
def Leads (seen : List Bid) : Option Bid × UInt64 → Prop
  | (none, _) => seen = []
  | (some highest, secondHighest) =>
      ∃ rest, FirstMax paid seen highest rest ∧ secondHighest.toNat = largest paid rest

theorem scanBid_leads {seen : List Bid} {acc : Option Bid × UInt64} (h : Leads seen acc) (bid : Bid) :
    Leads (seen ++ [bid]) (scanBid acc bid) := by
  obtain ⟨highest, second⟩ := acc
  cases highest with
  | none =>
      obtain rfl : seen = [] := h
      exact ⟨[], .single paid bid, rfl⟩
  | some highest =>
      obtain ⟨rest, hfirst, hsecond⟩ := h
      unfold scanBid
      dsimp only
      split
      · -- the new bid is strictly higher: it leads, and the old leader is the highest of the others
        rename_i hlt
        exact ⟨seen, hfirst.snoc_of_lt (paid_lt_iff.mpr hlt), hfirst.largest_eq.symm⟩
      · -- the leader stays; the bid may still be the second
        rename_i hle
        have hbid : paid bid ≤ paid highest := paid_le_iff.mpr (UInt64.not_lt.mp hle)
        have hlargest : largest paid (rest ++ [bid]) = max second.toNat (paid bid) := by
          rw [largest_snoc, hsecond]
        split
        · rename_i hsecondLt
          have hle' : second.toNat ≤ paid bid := Nat.le_of_lt (UInt64.lt_iff_toNat_lt.mp hsecondLt)
          exact ⟨rest ++ [bid], hfirst.snoc_of_le hbid, (hlargest.trans (max_eq_right hle')).symm⟩
        · rename_i hsecondLe
          have hle' : paid bid ≤ second.toNat := UInt64.le_iff_toNat_le.mp (UInt64.not_lt.mp hsecondLe)
          exact ⟨rest ++ [bid], hfirst.snoc_of_le hbid, (hlargest.trans (max_eq_left hle')).symm⟩

/-- **The loop invariant over the whole list.** -/
theorem scan_leads (bids seen : List Bid) {acc : Option Bid × UInt64} (h : Leads seen acc) :
    Leads (seen ++ bids) (bids.foldl scanBid acc) := by
  induction bids generalizing seen acc with
  | nil => rwa [List.append_nil]
  | cons bid bids ih =>
      have hih := ih (seen ++ [bid]) (scanBid_leads h bid)
      rwa [List.append_assoc] at hih

/-! ## The settlement -/

/-- The reserve, or the highest of these bids if that is higher. -/
def secondPrice (reserve : UInt64) (bids : List Bid) : UInt64 :=
  bids.foldr (fun bid price => max bid.amount price) reserve

theorem toNat_secondPrice (reserve : UInt64) (bids : List Bid) :
    (secondPrice reserve bids).toNat = max reserve.toNat (largest paid bids) := by
  induction bids with
  | nil => exact (max_eq_left (Nat.zero_le _)).symm
  | cons bid bids ih =>
      show (max bid.amount (secondPrice reserve bids)).toNat = _
      rw [toNat_max, ih, largest_cons, max_left_comm]
      rfl

/-- **The second-price outcome**: below the reserve nobody wins, else the highest bidder pays the highest of the other
    bids, or the reserve. -/
def outcome (reserve settledAt : UInt64) (highest : Bid) (rest : List Bid) : Settlement :=
  if highest.amount < reserve then
    { winner := none, clearingPrice := 0, winningBid := highest.amount, settledAt, sold := false }
  else
    { winner := some highest.bidder, clearingPrice := secondPrice reserve rest, winningBid := highest.amount
      settledAt, sold := true }

/-- **`settle_vickrey` is the second-price outcome** for the first of the highest bids. -/
theorem settleVickrey_eq (h : FirstMax paid a.bids highest rest) (settledAt : UInt64) :
    settleVickrey a settledAt = some (outcome a.reservePrice settledAt highest rest) := by
  have hleads : Leads a.bids (a.bids.foldl scanBid (none, 0)) := scan_leads a.bids [] rfl
  unfold settleVickrey
  split
  · rename_i hscan
    rw [hscan] at hleads
    have hmem := h.mem
    rw [hleads] at hmem
    cases hmem
  · rename_i leader second hscan
    rw [hscan] at hleads
    obtain ⟨others, hfirst, hsecond⟩ := hleads
    obtain ⟨rfl, rfl⟩ := hfirst.unique h
    have hprice : (if a.reservePrice < second then second else a.reservePrice) = secondPrice a.reservePrice others := by
      apply UInt64.toNat_inj.mp
      rw [toNat_secondPrice, ← hsecond]
      split
      · rename_i hlt
        rw [max_eq_right (Nat.le_of_lt (UInt64.lt_iff_toNat_lt.mp hlt))]
      · rename_i hle
        rw [max_eq_left (UInt64.le_iff_toNat_le.mp (UInt64.not_lt.mp hle))]
    unfold outcome
    rw [hprice]
    split <;> rfl

/-- There is a settlement exactly when there are bids. -/
theorem settleVickrey_none_iff : settleVickrey a nowUnix = none ↔ a.bids = [] := by
  constructor
  · intro hnone
    by_contra hbids
    obtain ⟨highest, rest, hfirst⟩ := FirstMax.exists paid hbids
    cases hnone.symm.trans (settleVickrey_eq hfirst nowUnix)
  · intro hbids
    unfold settleVickrey
    rw [hbids]
    rfl

/-- The price is between the reserve and the winning bid. -/
theorem secondPrice_bounds (h : FirstMax paid a.bids highest rest) (hreserve : ¬ highest.amount < a.reservePrice) :
    a.reservePrice ≤ secondPrice a.reservePrice rest ∧ secondPrice a.reservePrice rest ≤ highest.amount := by
  rw [UInt64.le_iff_toNat_le, UInt64.le_iff_toNat_le, toNat_secondPrice]
  refine ⟨le_max_left _ _, max_le ?_ h.largest_rest_le⟩
  exact UInt64.le_iff_toNat_le.mp (UInt64.not_lt.mp hreserve)

/-- **What a settlement says about the bids.** Unsold: nobody wins and nothing is to be paid. Sold: the winner
    made a highest bid, and the price is not above it. -/
theorem settleVickrey_spec {finalized : Settlement} (h : settleVickrey a nowUnix = some finalized) :
    (finalized.sold = false ∧ finalized.winner = none ∧ finalized.clearingPrice = 0) ∨
    (finalized.sold = true ∧ finalized.clearingPrice ≤ finalized.winningBid ∧
      ∃ highest ∈ a.bids, finalized.winner = some highest.bidder ∧
        finalized.winningBid = highest.amount ∧ ∀ bid ∈ a.bids, bid.amount ≤ highest.amount) := by
  have hbids : a.bids ≠ [] := by
    intro hnil
    rw [settleVickrey_none_iff.mpr hnil] at h
    cases h
  obtain ⟨highest, rest, hfirst⟩ := FirstMax.exists paid hbids
  obtain rfl := Option.some.inj ((settleVickrey_eq hfirst nowUnix).symm.trans h)
  unfold outcome
  split
  · exact Or.inl ⟨rfl, rfl, rfl⟩
  · rename_i hreserve
    exact Or.inr ⟨rfl, (secondPrice_bounds hfirst hreserve).2, highest, hfirst.mem, rfl, rfl,
      fun bid hbid => paid_le_iff.mp (hfirst.le bid hbid)⟩

end XlmNs.Auctions
