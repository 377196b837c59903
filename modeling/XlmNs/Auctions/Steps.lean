import XlmNs.Auctions.Vickrey

/-!
# `Auctions.Steps` — what a committed auction invocation did

`Change` sorts every committed invocation: administration, a new auction, a bid, a settlement with or without
bids. `payBids_eq_ok` turns the payout loop into a list of payments.
-/

namespace XlmNs.Auctions

open Soroban

variable {ω : Type} {out : Outside ω} {self : Address} {env : Env} {s s' : State} {w w' : ω}
variable {name : Bytes} {nowUnix : UInt64} {a : Auction}

/-! ## The payout loop as a list of payments -/

/-- A bid paid back. -/
def refund (bid : Bid) : Payment := (bid.bidder, bid.amount)

/-- A payment that is skipped when it is zero. -/
def ifPositive (p : Payment) : List Payment := if 0 < p.2 then [p] else []

/-- The payments of `payBids`, in order. -/
def payouts (auction : Auction) (finalized : Settlement) : List Bid → Bool → List Payment
  | [], _ => []
  | bid :: bids, clearingPricePaid =>
      if finalized.sold = true ∧ finalized.winner = some bid.bidder ∧
          bid.amount = finalized.winningBid ∧ clearingPricePaid = false then
        ifPositive (bid.bidder, saturatingSub bid.amount finalized.clearingPrice) ++
          (ifPositive (auction.treasury, finalized.clearingPrice) ++
            payouts auction finalized bids true)
      else refund bid :: payouts auction finalized bids clearingPricePaid

/-- Nothing is paid where there is nothing to pay. -/
theorem payPositive_eq_ok {asset dst : Address} {amount : UInt64} :
    payPositive out self env asset dst amount w = .ok w' ↔
      transferAll out.transfer (env.callFrom self) asset self (ifPositive (dst, amount)) w = some w' := by
  unfold payPositive ifPositive
  split
  · rw [invoke_eq_ok, transferAll_cons]
    constructor
    · intro h
      exact ⟨w', h, rfl⟩
    · rintro ⟨w₁, h, hnil⟩
      obtain rfl : w₁ = w' := Option.some.inj hnil
      exact h
  · rw [pure_eq_ok]
    exact ⟨fun h => congrArg some h, fun h => Option.some.inj h⟩

/-- **The payout loop executes exactly its list of payments.** -/
theorem payBids_eq_ok {finalized : Settlement} {bids : List Bid} {paid : Bool} :
    payBids out self env a finalized bids paid w = .ok w' ↔
      transferAll out.transfer (env.callFrom self) a.asset self (payouts a finalized bids paid) w
        = some w' := by
  induction bids generalizing paid w with
  | nil => exact pure_eq_ok.trans ⟨fun h => congrArg some h, fun h => Option.some.inj h⟩
  | cons bid bids ih =>
      unfold payBids payouts
      split
      · simp only [bind_eq_ok, payPositive_eq_ok, ih, transferAll_append, Option.bind_eq_some_iff]
      · simp only [bind_eq_ok, invoke_eq_ok, ih, transferAll_cons]
        rfl

/-! ## Administration and new auctions -/

theorem initializeContract_ok {admin : Address} (h : initializeContract s admin = .ok s') :
    s' = { s with admin := some admin, contractVersion := some XlmNs.contractVersion } := by
  simp only [initializeContract, bind_eq_ok, pure_eq_ok] at h
  obtain ⟨_, _, rfl⟩ := h
  rfl

theorem upgrade_ok {data : Bytes} (h : upgrade env s data = .ok s') :
    s' = { s with contractVersion := some (decodeTargetVersion data) } := by
  obtain ⟨_, rfl⟩ := upgradeStoring_eq_ok.mp h
  rfl

/-- **A committed `create_auction`**: the admin signed, the name was free, and the window ends after it starts. -/
theorem createAuction_eq_ok {asset treasury : Address} {reservePrice startsAt endsAt : UInt64} :
    createAuction env s name asset treasury reservePrice startsAt endsAt = .ok s' ↔
      (∃ admin, s.admin = some admin ∧ env.Authorises admin) ∧ validateFqdnSoroban name = .ok () ∧
        s.auction name = none ∧
        s' = { putAuction s name { name, reservePrice, startsAt, endsAt, bids := [], asset, treasury } with
          auctionNames := s.auctionNames ++ [name] } := by
  simp only [createAuction, bind_eq_ok, okOr_eq_ok, requireAuth_eq_ok, mapErr_eq_ok, require_eq_ok, pure_eq_ok,
    exists_const]
  constructor
  · rintro ⟨admin, hadmin, hauth, ⟨⟩, hvalid, hnone, rfl⟩
    exact ⟨⟨admin, hadmin, hauth⟩, hvalid, hnone, rfl⟩
  · rintro ⟨⟨admin, hadmin, hauth⟩, hvalid, hnone, rfl⟩
    exact ⟨admin, hadmin, hauth, (), hvalid, hnone, rfl⟩

/-! ## Every committed invocation is one of five changes -/

/-- The calls that touch neither auctions nor settlements. -/
def Call.isAdministration : Call → Bool
  | .initializeContract .. | .upgrade .. => true
  | _ => false

/-- **What a committed invocation did to the auctions, the settlements and the world.** -/
inductive Change (out : Outside ω) (self : Address) (env : Env) (s : State) (w : ω) (s' : State) (w' : ω) :
    Call → Prop
  /-- administration -/
  | quiet {c : Call} (hadmin : c.isAdministration = true) (hauction : s'.auction = s.auction)
      (hsettlement : s'.settlement = s.settlement) (hworld : w' = w) : Change out self env s w s' w' c
  /-- `create_auction`: a new auction without bids -/
  | create {name : Bytes} {asset treasury : Address} {reservePrice startsAt endsAt : UInt64}
      (hnone : s.auction name = none)
      (hauction : s'.auction = s.auction.set name
        { name, reservePrice, startsAt, endsAt, bids := [], asset, treasury })
      (hsettlement : s'.settlement = s.settlement) (hworld : w' = w) :
      Change out self env s w s' w' (.createAuction name asset treasury reservePrice startsAt endsAt)
  /-- `place_bid`: the bid is paid in and recorded -/
  | bid {name : Bytes} {bidder : Address} {amount nowUnix : UInt64} {a : Auction}
      (ha : s.auction name = some a) (hopen : s.settlement name = none)
      (hauth : env.Authorises bidder) (hwindow : isTimeWindowOpen nowUnix a.startsAt a.endsAt)
      (hpaid : out.transfer (env.callFrom self) a.asset bidder self amount w = some w')
      (hauction : s'.auction = s.auction.set name
        { a with bids := a.bids ++ [⟨bidder, amount, nowUnix⟩] })
      (hsettlement : s'.settlement = s.settlement) :
      Change out self env s w s' w' (.placeBid name bidder amount nowUnix)
  /-- `settle` without bids: nothing is recorded or paid -/
  | noBids {name : Bytes} {nowUnix : UInt64} {a : Auction} (ha : s.auction name = some a)
      (hfinal : settleVickrey a nowUnix = none) (hauction : s'.auction = s.auction)
      (hsettlement : s'.settlement = s.settlement) (hworld : w' = w) :
      Change out self env s w s' w' (.settle name nowUnix)
  /-- `settle`: the settlement is recorded and its payments are made -/
  | settle {name : Bytes} {nowUnix : UInt64} {a : Auction} {finalized : Settlement}
      (ha : s.auction name = some a) (hopen : s.settlement name = none) (hended : a.endsAt ≤ nowUnix)
      (hfinal : settleVickrey a nowUnix = some finalized) (hauction : s'.auction = s.auction)
      (hsettlement : s'.settlement = s.settlement.set name finalized)
      (hpaid : transferAll out.transfer (env.callFrom self) a.asset self
        (payouts a finalized a.bids false) w = some w') :
      Change out self env s w s' w' (.settle name nowUnix)

/-- The window is open, whichever error says otherwise. -/
theorem requireWindowOpen_eq_ok {u : Unit} :
    requireWindowOpen a nowUnix = .ok u ↔ isTimeWindowOpen nowUnix a.startsAt a.endsAt := by
  unfold requireWindowOpen
  split
  · rename_i hopen
    simp [hopen]
  · rename_i hclosed
    split <;> simp [hclosed]

/-- **When a bid is accepted, and what it does.** -/
theorem placeBid_eq_ok {bidder : Address} {amount : UInt64} :
    placeBid out self env s w name bidder amount nowUnix = .ok (s', w') ↔
      s.reentrancyLock.getD false = false ∧ env.Authorises bidder ∧ amount ≠ 0 ∧
        ∃ a, s.auction name = some a ∧ s.settlement name = none ∧ isTimeWindowOpen nowUnix a.startsAt a.endsAt ∧
          out.transfer (env.callFrom self) a.asset bidder self amount w = some w' ∧
          s' = { s with
            auction        := s.auction.set name { a with bids := a.bids ++ [⟨bidder, amount, nowUnix⟩] }
            reentrancyLock := some false } := by
  simp only [placeBid, withReentrancyLock, bind_eq_ok, requireAuth_eq_ok, require_eq_ok, getAuction,
    okOr_eq_ok, requireWindowOpen_eq_ok, invoke_eq_ok, pure_eq_ok, Prod.mk.injEq, exists_const]
  constructor
  · rintro ⟨hlock, ⟨_, _⟩, ⟨hauth, hamount, a, ha, hopen, hwindow, w₁, hpaid, rfl, rfl⟩, rfl, rfl⟩
    exact ⟨hlock, hauth, hamount, a, ha, hopen, hwindow, hpaid, rfl⟩
  · rintro ⟨hlock, hauth, hamount, a, ha, hopen, hwindow, hpaid, rfl⟩
    exact ⟨hlock, _, ⟨hauth, hamount, a, ha, hopen, hwindow, w', hpaid, rfl⟩, rfl, rfl⟩

/-- A committed bid is appended, and paid for. -/
theorem placeBid_change {bidder : Address} {amount : UInt64}
    (h : placeBid out self env s w name bidder amount nowUnix = .ok (s', w')) :
    Change out self env s w s' w' (.placeBid name bidder amount nowUnix) := by
  obtain ⟨_, hauth, _, a, ha, hopen, hwindow, hpaid, rfl⟩ := placeBid_eq_ok.mp h
  exact .bid ha hopen hauth hwindow hpaid rfl rfl

/-- A settlement that is due, and whose payments go through, is recorded. -/
theorem settle_ok {finalized : Settlement} (ha : s.auction name = some a) (hopen : s.settlement name = none)
    (hended : a.endsAt ≤ nowUnix) (hfinal : settleVickrey a nowUnix = some finalized)
    (hpaid : transferAll out.transfer (env.callFrom self) a.asset self (payouts a finalized a.bids false) w = some w') :
    settle out self env s w name nowUnix
      = .ok (({ s with settlement := s.settlement.set name finalized }, w'), some finalized) := by
  simp only [settle, bind_eq_ok, getAuction, okOr_eq_ok, require_eq_ok, exists_const]
  refine ⟨a, ha, hopen, hended, ?_⟩
  rw [hfinal]
  simp only [bind_eq_ok, payBids_eq_ok, pure_eq_ok]
  exact ⟨w', hpaid, rfl⟩

/-- A committed settlement is recorded, and the bids are paid out. -/
theorem settle_change {r : Option Settlement}
    (h : settle out self env s w name nowUnix = .ok ((s', w'), r)) :
    Change out self env s w s' w' (.settle name nowUnix) := by
  simp only [settle, bind_eq_ok, getAuction, okOr_eq_ok, require_eq_ok, exists_const] at h
  obtain ⟨a, ha, hopen, hended, h⟩ := h
  cases hfinal : settleVickrey a nowUnix with
  | none =>
      rw [hfinal] at h
      simp only [pure_eq_ok, Prod.mk.injEq] at h
      obtain ⟨⟨rfl, rfl⟩, _⟩ := h
      exact .noBids ha hfinal rfl rfl rfl
  | some finalized =>
      rw [hfinal] at h
      simp only [bind_eq_ok, payBids_eq_ok, pure_eq_ok, Prod.mk.injEq] at h
      obtain ⟨w₁, hpaid, ⟨rfl, rfl⟩, _⟩ := h
      exact .settle ha hopen hended hfinal rfl rfl hpaid

/-- **Every committed invocation is a `Change`.** -/
theorem step_change {t : Tx Call} (h : step out self (s, w) t = .ok (s', w')) :
    Change out self t.env s w s' w' t.call := by
  obtain ⟨env, c⟩ := t
  cases c with
  | initializeContract admin =>
      simp only [step, bind_eq_ok, pure_eq_ok, Prod.mk.injEq] at h
      obtain ⟨_, h, rfl, rfl⟩ := h
      obtain rfl := initializeContract_ok h
      exact .quiet rfl rfl rfl rfl
  | upgrade data =>
      simp only [step, bind_eq_ok, pure_eq_ok, Prod.mk.injEq] at h
      obtain ⟨_, h, rfl, rfl⟩ := h
      obtain rfl := upgrade_ok h
      exact .quiet rfl rfl rfl rfl
  | createAuction name asset treasury reservePrice startsAt endsAt =>
      simp only [step, bind_eq_ok, pure_eq_ok, Prod.mk.injEq] at h
      obtain ⟨_, h, rfl, rfl⟩ := h
      obtain ⟨_, _, hnone, rfl⟩ := createAuction_eq_ok.mp h
      exact .create hnone rfl rfl rfl
  | placeBid name bidder amount nowUnix => exact placeBid_change h
  | settle name nowUnix =>
      simp only [step, bind_eq_ok, pure_eq_ok] at h
      obtain ⟨⟨_, r⟩, h, rfl⟩ := h
      exact settle_change h

end XlmNs.Auctions
