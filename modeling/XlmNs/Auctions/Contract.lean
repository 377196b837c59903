import XlmNs.Common.Names
import XlmNs.Common.Upgrade
import XlmNs.Soroban.Store
import XlmNs.Soroban.Token

/-!
# `Auctions.Contract` — the auction contract (`contracts/auction/src/lib.rs`)

Sealed-price auctions of names: bids are paid in when placed, and settlement refunds them all but for the price
of the highest. Several auctions, in several assets, share the contract's one account.

The tokens are a parameter (`Outside`) acting on the state `ω` of everything outside the contract.
`src/bid.rs` and `src/settle.rs` belong to no module of the crate; they are in `Auctions.Reference`. The discovery
views are in `Auctions.Discovery`, and events are not modelled.
-/

namespace XlmNs.Auctions

open Soroban

/-- A bid, as it was placed. -/
structure Bid where
  bidder   : Address
  amount   : UInt64
  placedAt : UInt64
deriving DecidableEq, Repr

/-- The outcome of an auction. -/
structure Settlement where
  winner        : Option Address
  clearingPrice : UInt64
  winningBid    : UInt64
  settledAt     : UInt64
  sold          : Bool
deriving DecidableEq, Repr

/-- An auction with the bids placed so far. -/
structure Auction where
  name         : Bytes
  reservePrice : UInt64
  startsAt     : UInt64
  endsAt       : UInt64
  bids         : List Bid
  asset        : Address
  treasury     : Address
deriving DecidableEq, Repr

/-- What an entrypoint of the auction contract may refuse with. -/
inductive AuctionError
  | validation
  | alreadyExists
  | notFound
  | auctionClosed
  | auctionNotStarted
  | auctionNotEnded
  | alreadySettled
  | invalidBid
  | upgradeFailed
  | reentrancyDetected
deriving DecidableEq, Repr

/-- The contract's storage, one field per `DataKey`; an absent `AuctionNames` reads as empty. -/
structure State where
  auction         : Store Bytes Auction
  settlement      : Store Bytes Settlement
  auctionNames    : List Bytes
  admin           : Option Address
  contractVersion : Option UInt32
  reentrancyLock  : Option Bool

/-- A freshly deployed auction contract. -/
def State.empty : State where
  auction         := fun _ => none
  settlement      := fun _ => none
  auctionNames    := []
  admin           := none
  contractVersion := none
  reentrancyLock  := none

/-- What the contract relies on outside its own code. -/
structure Outside (ω : Type) where
  transfer : TransferFn ω

/-- Tokens whose every transfer goes through. -/
def obliging : Outside Unit := ⟨fun _ _ _ _ _ _ => some ()⟩

variable {ω : Type}

/-- How an entrypoint of the auction contract ends. -/
abbrev Result (α : Type) := Outcome AuctionError α

/-! ## Helpers -/

/-- The auction of a name, or `NotFound`. -/
def getAuction (s : State) (name : Bytes) : Result Auction := okOr (s.auction name) .notFound

/-- Write the auction of a name. -/
def putAuction (s : State) (name : Bytes) (auction : Auction) : State :=
  { s with auction := s.auction.set name auction }

/-- `with_reentrancy_lock`: what runs inside cannot be entered again. -/
def withReentrancyLock (s : State) (f : State → Result (State × ω)) : Result (State × ω) := do
  require (s.reentrancyLock.getD false = false) .reentrancyDetected
  let (s, w) ← f { s with reentrancyLock := some true }
  return ({ s with reentrancyLock := some false }, w)

/-! ## Administration -/

/-- `initialize` -/
def initializeContract (s : State) (admin : Address) : Result State := do
  require (s.admin = none) .alreadyExists
  return { s with admin := some admin, contractVersion := some XlmNs.contractVersion }

/-- The model follows `upgrade` up to the replacement of the code; every `migrate` step is a no-op. -/
def upgrade (env : Env) (s : State) (migrationData : Bytes) : Result State :=
  upgradeStoring (fun version => { s with contractVersion := some version }) env s.admin .upgradeFailed
    s.contractVersion migrationData

/-- The admin opens an auction for a name. -/
def createAuction (env : Env) (s : State) (name : Bytes) (asset treasury : Address)
    (reservePrice startsAt endsAt : UInt64) : Result State := do
  let admin ← okOr s.admin .notFound
  requireAuth env admin
  mapErr (validateFqdnSoroban name) .validation
  require (s.auction name = none) .alreadyExists
  let s := putAuction s name { name, reservePrice, startsAt, endsAt, bids := [], asset, treasury }
  return { s with auctionNames := s.auctionNames ++ [name] }

/-! ## Bidding -/

/-- The window check of `place_bid`, with its two errors. -/
def requireWindowOpen (auction : Auction) (nowUnix : UInt64) : Result Unit :=
  if isTimeWindowOpen nowUnix auction.startsAt auction.endsAt then return ()
  else if nowUnix < auction.startsAt then .error (.error .auctionNotStarted)
  else .error (.error .auctionClosed)

/-- A bidder pays a bid in, while the auction is open. -/
def placeBid (out : Outside ω) (self : Address) (env : Env) (s : State) (w : ω) (name : Bytes)
    (bidder : Address) (amount nowUnix : UInt64) : Result (State × ω) :=
  withReentrancyLock s fun s => do
    requireAuth env bidder
    require (amount ≠ 0) .invalidBid
    let auction ← getAuction s name
    require (s.settlement name = none) .alreadySettled
    requireWindowOpen auction nowUnix
    let w ← invoke (out.transfer (env.callFrom self) auction.asset bidder self amount w)
    return (putAuction s name { auction with bids := auction.bids ++ [⟨bidder, amount, nowUnix⟩] }, w)

/-! ## Settlement -/

/-- One pass of the loop of `settle_vickrey`: the highest bid so far, and the second-highest amount. -/
def scanBid (acc : Option Bid × UInt64) (bid : Bid) : Option Bid × UInt64 :=
  match acc with
  | (none, _) => (some bid, 0)
  | (some current, secondHighest) =>
      if current.amount < bid.amount then (some bid, current.amount)
      else if secondHighest < bid.amount then (some current, bid.amount)
      else (some current, secondHighest)

/-- The highest bid wins, the earliest among equals, and pays what the second highest and the reserve make it. -/
def settleVickrey (auction : Auction) (settledAt : UInt64) : Option Settlement :=
  match auction.bids.foldl scanBid (none, 0) with
  | (none, _) => none
  | (some highest, secondHighest) =>
      -- below the reserve nobody wins, and the highest bid is only reported
      if highest.amount < auction.reservePrice then
        some { winner := none, clearingPrice := 0, winningBid := highest.amount, settledAt, sold := false }
      else
        some
          { winner        := some highest.bidder
            clearingPrice := if auction.reservePrice < secondHighest then secondHighest
              else auction.reservePrice
            winningBid    := highest.amount
            settledAt
            sold          := true }

/-- `if amount > 0 { token.transfer(…) }` -/
def payPositive (out : Outside ω) (self : Address) (env : Env) (asset dst : Address) (amount : UInt64)
    (w : ω) : Result ω :=
  if 0 < amount then invoke (out.transfer (env.callFrom self) asset self dst amount w) else return w

/-- The loop of `settle` over the bids: the first bid that matches the winner pays the clearing price, every
    other bid is refunded. -/
def payBids (out : Outside ω) (self : Address) (env : Env) (auction : Auction) (finalized : Settlement) :
    List Bid → Bool → ω → Result ω
  | [], _, w => return w
  | bid :: bids, clearingPricePaid, w =>
      if finalized.sold = true ∧ finalized.winner = some bid.bidder ∧
          bid.amount = finalized.winningBid ∧ clearingPricePaid = false then do
        let overpay := saturatingSub bid.amount finalized.clearingPrice
        let w ← payPositive out self env auction.asset bid.bidder overpay w
        let w ← payPositive out self env auction.asset auction.treasury finalized.clearingPrice w
        payBids out self env auction finalized bids true w
      else do
        let w ← invoke (out.transfer (env.callFrom self) auction.asset self bid.bidder bid.amount w)
        payBids out self env auction finalized bids clearingPricePaid w

/-- No authorisation is required. Without bids nothing is recorded. -/
def settle (out : Outside ω) (self : Address) (env : Env) (s : State) (w : ω) (name : Bytes)
    (nowUnix : UInt64) : Result ((State × ω) × Option Settlement) := do
  let auction ← getAuction s name
  require (s.settlement name = none) .alreadySettled
  require (auction.endsAt ≤ nowUnix) .auctionNotEnded
  match settleVickrey auction nowUnix with
  | none => return ((s, w), none)
  | some finalized => do
      -- recorded before the payouts: a payment that fails undoes the record too
      let s := { s with settlement := s.settlement.set name finalized }
      let w ← payBids out self env auction finalized auction.bids false w
      return ((s, w), some finalized)

/-! ## Dispatch -/

/-- The state-changing entrypoints with their arguments. -/
inductive Call
  | initializeContract (admin : Address)
  | upgrade (migrationData : Bytes)
  | createAuction (name : Bytes) (asset treasury : Address) (reservePrice startsAt endsAt : UInt64)
  | placeBid (name : Bytes) (bidder : Address) (amount nowUnix : UInt64)
  | settle (name : Bytes) (nowUnix : UInt64)
deriving DecidableEq, Repr

/-- One invocation of the auction contract: its storage and the outside world after it. -/
def step (out : Outside ω) (self : Address) (sw : State × ω) (t : Tx Call) : Result (State × ω) :=
  let (s, w) := sw
  match t.call with
  | .initializeContract admin => return (← initializeContract s admin, w)
  | .upgrade migrationData => return (← upgrade t.env s migrationData, w)
  | .createAuction name asset treasury reservePrice startsAt endsAt =>
      return (← createAuction t.env s name asset treasury reservePrice startsAt endsAt, w)
  | .placeBid name bidder amount nowUnix => placeBid out self t.env s w name bidder amount nowUnix
  | .settle name nowUnix => return (← settle out self t.env s w name nowUnix).1

end XlmNs.Auctions
