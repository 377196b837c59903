import XlmNs.Auctions.Contract
import XlmNs.Soroban.U64

/-!
# `Auctions.Discovery` — the discovery views of the auction contract (`contracts/auction/src/lib.rs`)

`auction_names`, `active_auctions` and `settled_auctions` look at the hundred oldest auctions; the `list_*` views page
through all of them. The views read the storage only. A `u32` addition or subtraction that overflows is a trap here; a
build that lets it wrap computes the same wherever none does.
-/

namespace XlmNs.Auctions

open Soroban

/-- `MAX_AUCTION_RESULTS` -/
def maxAuctionResults : UInt32 := 100

/-- `MAX_PAGE_SIZE` -/
def maxPageSize : UInt32 := 100

/-! ## The bounded views -/

/-- The auction of a name. -/
def auction (s : State) (name : Bytes) : Option Auction := s.auction name

/-- The names of all auctions, in creation order. -/
def auctionIndex (s : State) : List Bytes := s.auctionNames

/-- The first hundred of them. -/
def auctionNames (s : State) : List Bytes := (auctionIndex s).take maxAuctionResults.toNat

/-- Those of the first hundred that are open. -/
def activeAuctions (s : State) (nowUnix : UInt64) : List Auction :=
  (auctionNames s).filterMap fun name =>
    if (s.settlement name).isSome then none
    else
      match auction s name with
      | some auction => if isTimeWindowOpen nowUnix auction.startsAt auction.endsAt then some auction else none
      | none => none

/-- Those of the first hundred that are settled. -/
def settledAuctions (s : State) : List Auction :=
  (auctionNames s).filterMap fun name => if (s.settlement name).isSome then auction s name else none

/-! ## The paged views -/

/-- A page has at most a hundred names. -/
def cappedLimit (limit : UInt32) : UInt32 := if maxPageSize < limit then maxPageSize else limit

/-- The loop of `slice_index`. -/
def sliceLoop (index : List Bytes) (total offset cappedLimit i : UInt32) (out : List Bytes) : Result (List Bytes) :=
  if _hi : i < total then do
    let taken ← invoke (checkedSub32 i offset)
    if taken < cappedLimit then
      let out := match index[i.toNat]? with
        | some name => out ++ [name]
        | none => out
      match _hnext : checkedAdd32 i 1 with
      | some next => sliceLoop index total offset cappedLimit next out
      | none => .error .trap
    else return out
  else return out
termination_by total.toNat - i.toNat
decreasing_by
  have := UInt32.lt_iff_toNat_lt.mp ‹i < total›
  have hone : (1 : UInt32).toNat = 1 := rfl
  have := toNat_of_checkedAdd32 ‹_›
  omega

/-- A page of a list. -/
def sliceIndex (index : List Bytes) (offset limit : UInt32) : Result (List Bytes) :=
  let total := UInt32.ofNat index.length
  if total ≤ offset then return []
  else sliceLoop index total offset (cappedLimit limit) offset []

/-- The loop of `filter_index` over the rest of the index. -/
def filterLoop (keep : Bytes → Bool) (offset cappedLimit : UInt32) :
    List Bytes → UInt32 → List Bytes → Result (List Bytes)
  | [], _, emitted => return emitted
  | name :: names, matched, emitted =>
      if keep name = false then filterLoop keep offset cappedLimit names matched emitted
      else do
        let emitted :=
          if offset ≤ matched ∧ emitted.length < cappedLimit.toNat then emitted ++ [name] else emitted
        let matched ← invoke (checkedAdd32 matched 1)
        if cappedLimit.toNat ≤ emitted.length then return emitted
        else filterLoop keep offset cappedLimit names matched emitted

/-- A page of the names that pass a filter. -/
def filterIndex (s : State) (offset limit : UInt32) (keep : State → Bytes → Bool) : Result (List Bytes) :=
  filterLoop (keep s) offset (cappedLimit limit) (auctionIndex s) 0 []

/-- How many auctions there are. -/
def auctionCount (s : State) : UInt32 := UInt32.ofNat (auctionIndex s).length

/-- A page of all auctions. -/
def listAuctions (s : State) (offset limit : UInt32) : Result (List Bytes) := sliceIndex (auctionIndex s) offset limit

/-- The filter of `list_active_auctions`. -/
def isActive (nowUnix : UInt64) (s : State) (name : Bytes) : Bool :=
  if (s.settlement name).isSome then false
  else
    match s.auction name with
    | some a => decide (a.startsAt ≤ nowUnix ∧ nowUnix ≤ a.endsAt)
    | none => false

/-- The filter of `list_settled_auctions`. -/
def isSettled (s : State) (name : Bytes) : Bool := (s.settlement name).isSome

/-- A page of the open auctions. -/
def listActiveAuctions (s : State) (nowUnix : UInt64) (offset limit : UInt32) : Result (List Bytes) :=
  filterIndex s offset limit (isActive nowUnix)

/-- A page of the settled auctions. -/
def listSettledAuctions (s : State) (offset limit : UInt32) : Result (List Bytes) :=
  filterIndex s offset limit isSettled

end XlmNs.Auctions
