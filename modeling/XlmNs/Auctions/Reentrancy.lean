import XlmNs.Auctions.Contract
import XlmNs.Soroban.Callbacks

/-!
# `Auctions.Reentrancy` — the auction contract, called back by the tokens it calls

The entrypoints again, with a transfer that may change the contract's own storage: it returns after having called
the contract as often as it likes. `place_bid` reads the auction before the transfer, and writes it back after. The lock
it takes stops `place_bid` itself, and nothing else.

What the invocations did is kept in a history (`Event`). With tokens that leave the contract alone (`Tokens.plain`),
these are the entrypoints of `Auctions.Contract`: `enter_plain`.
-/

namespace XlmNs.Auctions

open Soroban

/-- What an invocation did, when it did it. -/
inductive Event
  | bid (name : Bytes) (bid : Bid)
  | settled (name : Bytes) (finalized : Settlement)
  | paidOut (name : Bytes)
deriving DecidableEq, Repr

/-- The world outside the contract, and the history. -/
structure Traced (ω : Type) where
  world  : ω
  events : List Event

variable {ω : Type}

/-- Write an event down. -/
def Traced.note (w : Traced ω) (e : Event) : Traced ω := { w with events := w.events ++ [e] }

/-- The arguments of a token's `transfer`. -/
structure Transfer where
  env    : Env
  asset  : Address
  src    : Address
  dst    : Address
  amount : UInt64

/-- The tokens, which may call back before they answer. -/
abbrev Tokens (ω : Type) := Callback Transfer (State × Traced ω)

/-- The tokens as the contract sees them. -/
def Tokens.outside (f : Tokens ω) : Outside (State × Traced ω) where
  transfer env asset src dst amount sw := f ⟨env, asset, src, dst, amount⟩ sw

namespace CalledBack

/-- `place_bid`: the storage it goes on with is the one the transfer left. -/
def placeBid (f : Tokens ω) (self : Address) (env : Env) (s : State) (w : Traced ω) (name : Bytes)
    (bidder : Address) (amount nowUnix : UInt64) : Result (State × Traced ω) :=
  withReentrancyLock s fun s => do
    requireAuth env bidder
    require (amount ≠ 0) .invalidBid
    let auction ← getAuction s name
    require (s.settlement name = none) .alreadySettled
    requireWindowOpen auction nowUnix
    let (s, w) ← invoke (f.outside.transfer (env.callFrom self) auction.asset bidder self amount (s, w))
    -- the auction as it was read before the transfer
    return (putAuction s name { auction with bids := auction.bids ++ [⟨bidder, amount, nowUnix⟩] },
      w.note (.bid name ⟨bidder, amount, nowUnix⟩))

/-- `settle` takes no lock. -/
def settle (f : Tokens ω) (self : Address) (env : Env) (s : State) (w : Traced ω) (name : Bytes)
    (nowUnix : UInt64) : Result ((State × Traced ω) × Option Settlement) := do
  let auction ← getAuction s name
  require (s.settlement name = none) .alreadySettled
  require (auction.endsAt ≤ nowUnix) .auctionNotEnded
  match settleVickrey auction nowUnix with
  | none => return ((s, w), none)
  | some finalized => do
      let s := { s with settlement := s.settlement.set name finalized }
      let (s, w) ← payBids f.outside self env auction finalized auction.bids false (s, w.note (.settled name finalized))
      return ((s, w.note (.paidOut name)), some finalized)

end CalledBack

/-- One invocation, with the tokens it will call. -/
def enter (self : Address) (f : Tokens ω) (sw : State × Traced ω) (t : Tx Call) : Result (State × Traced ω) :=
  let (s, w) := sw
  match t.call with
  | .initializeContract admin => return (← initializeContract s admin, w)
  | .upgrade migrationData => return (← upgrade t.env s migrationData, w)
  | .createAuction name asset treasury reservePrice startsAt endsAt =>
      return (← createAuction t.env s name asset treasury reservePrice startsAt endsAt, w)
  | .placeBid name bidder amount nowUnix => CalledBack.placeBid f self t.env s w name bidder amount nowUnix
  | .settle name nowUnix => return (← CalledBack.settle f self t.env s w name nowUnix).1

/-! ## Tokens that do not call back -/

/-- Tokens that act on the world alone. -/
def Tokens.plain (out : Outside ω) : Tokens ω := fun k sw =>
  (out.transfer k.env k.asset k.src k.dst k.amount sw.2.world).map fun w => (sw.1, { sw.2 with world := w })

/-- The history is dropped. -/
def forget (sw : State × Traced ω) : State × ω := (sw.1, sw.2.world)

theorem invoke_plain (out : Outside ω) (env : Env) (asset src dst : Address) (amount : UInt64) (s : State)
    (w : Traced ω) :
    (invoke ((Tokens.plain out).outside.transfer env asset src dst amount (s, w)) : Result (State × Traced ω))
      = (invoke (out.transfer env asset src dst amount w.world)).map fun w' => (s, { w with world := w' }) := by
  unfold Tokens.outside Tokens.plain
  dsimp only
  cases out.transfer env asset src dst amount w.world <;> rfl

theorem payPositive_plain (out : Outside ω) (self : Address) (env : Env) (asset dst : Address) (amount : UInt64)
    (s : State) (w : Traced ω) :
    payPositive (Tokens.plain out).outside self env asset dst amount (s, w)
      = (payPositive out self env asset dst amount w.world).map fun w' => (s, { w with world := w' }) := by
  unfold payPositive
  split
  · exact invoke_plain out _ _ _ _ _ s w
  · rfl

/-- The loop leaves the contract's storage and the history as they were. -/
theorem payBids_plain (out : Outside ω) (self : Address) (env : Env) (auction : Auction) (finalized : Settlement)
    (s : State) (bids : List Bid) (paid : Bool) (w : Traced ω) :
    payBids (Tokens.plain out).outside self env auction finalized bids paid (s, w)
      = (payBids out self env auction finalized bids paid w.world).map fun w' => (s, { w with world := w' }) := by
  induction bids generalizing paid w with
  | nil => rfl
  | cons bid bids ih =>
      unfold payBids
      split
      · simp only [payPositive_plain, bind_map_outcome, map_bind_outcome, ih]
      · simp only [invoke_plain, bind_map_outcome, map_bind_outcome, ih]

/-- **With plain tokens, the entrypoints are those of the contract.** -/
theorem enter_plain (out : Outside ω) (self : Address) (s : State) (w : Traced ω) (t : Tx Call) :
    (enter self (Tokens.plain out) (s, w) t).map forget = step out self (s, w.world) t := by
  obtain ⟨env, c⟩ := t
  cases c with
  | initializeContract admin =>
      simp only [enter, step, map_bind_outcome]
      rfl
  | upgrade data =>
      simp only [enter, step, map_bind_outcome]
      rfl
  | createAuction name asset treasury reservePrice startsAt endsAt =>
      simp only [enter, step, map_bind_outcome]
      rfl
  | placeBid name bidder amount nowUnix =>
      simp only [enter, step, CalledBack.placeBid, placeBid, withReentrancyLock, map_bind_outcome, invoke_plain,
        bind_map_outcome, bind_assoc, pure_bind]
      rfl
  | settle name nowUnix =>
      simp only [enter, step, CalledBack.settle, settle, map_bind_outcome, bind_assoc]
      refine bind_congr_outcome fun auction _ => bind_congr_outcome fun _ _ => bind_congr_outcome fun _ _ => ?_
      cases settleVickrey auction nowUnix with
      | none => rfl
      | some finalized =>
          simp only [payBids_plain, bind_map_outcome, bind_assoc, pure_bind]
          rfl

/-- What is not the contract's: its storage and the history stay. -/
def OutsideChange (sw sw' : State × Traced ω) : Prop := sw'.1 = sw.1 ∧ sw'.2.events = sw.2.events

/-- A freshly deployed contract, with nothing done. -/
def fresh (w : ω) : State × Traced ω := (State.empty, ⟨w, []⟩)

end XlmNs.Auctions
