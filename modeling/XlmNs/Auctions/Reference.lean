import Mathlib.Data.List.Basic

/-!
# `Auctions.Reference` — the reference settlement (`contracts/auction/src/settle.rs`, `bid.rs`)

The two files belong to no module of the crate: settlement by sorting. Bids that are blank, empty or late are left out,
the others sorted by a stable sort, highest first.
-/

namespace XlmNs.Auctions.Reference

/-- A bid of the reference crate, whose bidder is text. -/
structure Bid where
  bidder   : String
  amount   : UInt64
  placedAt : UInt64
deriving DecidableEq, Repr

/-- An outcome of the reference crate. -/
structure Settlement where
  winner        : Option String
  clearingPrice : UInt64
  winningBid    : UInt64
  settledAt     : UInt64
  sold          : Bool
deriving DecidableEq, Repr

/-- `char::is_whitespace`: the code points with the property White_Space. -/
def isWhitespace (c : Char) : Bool :=
  (9 ≤ c.toNat && c.toNat ≤ 13) || c.toNat == 32 || c.toNat == 133 || c.toNat == 160 || c.toNat == 5760 ||
    (8192 ≤ c.toNat && c.toNat ≤ 8202) || c.toNat == 8232 || c.toNat == 8233 || c.toNat == 8239 || c.toNat == 8287 ||
    c.toNat == 12288

/-- `str::trim` -/
def trim (s : List Char) : List Char := ((s.dropWhile isWhitespace).reverse.dropWhile isWhitespace).reverse

/-- A bid has a bidder and an amount. -/
def Bid.isValid (bid : Bid) : Bool := !(trim bid.bidder.toList).isEmpty && decide (0 < bid.amount)

/-- The valid bids in time are sorted, and the second one sets the price. -/
def settleVickrey (bids : List Bid) (reservePrice biddingDeadline settledAt : UInt64) : Option Settlement :=
  let sorted := (bids.filter fun bid => bid.isValid && decide (bid.placedAt ≤ biddingDeadline)).mergeSort
    fun left right => decide (right.amount ≤ left.amount)
  match sorted with
  | [] => none
  | winner :: others =>
      if winner.amount < reservePrice then
        some { winner := none, clearingPrice := 0, winningBid := winner.amount, settledAt, sold := false }
      else
        some
          { winner        := some winner.bidder
            clearingPrice := (others.head?.map fun bid => max bid.amount reservePrice).getD reservePrice
            winningBid    := winner.amount
            settledAt
            sold          := true }

end XlmNs.Auctions.Reference
