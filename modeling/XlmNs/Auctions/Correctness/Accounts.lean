import XlmNs.Auctions.Correctness.Discovery
import XlmNs.Auctions.Correctness.Solvency

/-!
# `Auctions.Correctness.Accounts` — what an account has after a run

A bidder has the bids of open auctions staked and, of the auctions it won, has paid the price (`staked`); a treasury has
earned the prices of the auctions it sold (`earned`). `accounts_balanced`: nothing else moves the balance of anybody in any
asset, over any run; the contract holds besides what it owes.
-/

namespace XlmNs.Auctions

open Soroban

variable {ω : Type} {out : Outside ω} {self : Address} {env : Env} {s s' : State} {w w' : ω}
variable {name : Bytes} {a : Auction} {asset holder : Address} {finalized : Settlement}

/-! ## What is on record -/

/-- **Every settlement on record is that of its auction.** -/
structure Recorded (s : State) : Prop where
  indexed : Indexed s
  settled : ∀ name finalized, s.settlement name = some finalized →
    ∃ a settledAt, s.auction name = some a ∧ settleVickrey a settledAt = some finalized

theorem recorded_empty : Recorded State.empty := ⟨indexed_empty, fun _ _ h => nomatch h⟩

/-- What is not there is not settled. -/
theorem Recorded.unsettled (h : Recorded s) (hnone : s.auction name = none) : s.settlement name = none := by
  cases hsettled : s.settlement name with
  | none => rfl
  | some finalized =>
      obtain ⟨a, _, ha, _⟩ := h.settled name finalized hsettled
      cases ha.symm.trans hnone

/-- An auction that is not settled may be written. -/
theorem Recorded.settled_set (h : Recorded s) (hopen : s.settlement name = none) (a : Auction) (n : Bytes)
    (finalized : Settlement) (hn : s.settlement n = some finalized) :
    ∃ a' settledAt, s.auction.set name a n = some a' ∧ settleVickrey a' settledAt = some finalized := by
  obtain ⟨a', settledAt, ha', hfinal⟩ := h.settled n finalized hn
  have hne : n ≠ name := by
    rintro rfl
    cases hn.symm.trans hopen
  exact ⟨a', settledAt, (Store.set_ne _ _ hne).trans ha', hfinal⟩

theorem step_recorded {t : Tx Call} (h : Recorded s) (hok : step out self (s, w) t = .ok (s', w')) : Recorded s' := by
  refine ⟨step_indexed h.indexed hok, ?_⟩
  obtain ⟨env, c⟩ := t
  cases step_change hok with
  | quiet _ hauction hsettlement _ =>
      rw [hauction, hsettlement]
      exact h.settled
  | noBids _ _ hauction hsettlement _ =>
      rw [hauction, hsettlement]
      exact h.settled
  | create hnone hauction hsettlement _ =>
      rw [hauction, hsettlement]
      exact h.settled_set (h.unsettled hnone) _
  | bid _ hopen _ _ _ hauction hsettlement =>
      rw [hauction, hsettlement]
      exact h.settled_set hopen _
  | settle ha _ _ hfinal hauction hsettlement _ =>
      rw [hauction, hsettlement]
      intro n finalized hn
      rcases Store.set_eq_some.mp hn with ⟨rfl, rfl⟩ | ⟨_, hn⟩
      · exact ⟨_, _, ha, hfinal⟩
      · exact h.settled n finalized hn

/-! ## What a settlement pays to one account -/

/-- The price, if this is who pays it. -/
def priceOf (finalized : Settlement) (holder : Address) : Nat :=
  if finalized.winner = some holder then finalized.clearingPrice.toNat else 0

/-- The price, if this is who it is for. -/
def proceedsOf (a : Auction) (finalized : Settlement) (holder : Address) : Nat :=
  if a.treasury = holder then finalized.clearingPrice.toNat else 0

theorem received_ifPositive (p : Payment) :
    received holder (ifPositive p) = if p.1 = holder then p.2.toNat else 0 := by
  unfold ifPositive
  split
  · simp
  · rename_i h
    have hzero : p.2.toNat = 0 := by
      rw [UInt64.lt_iff_toNat_lt] at h
      simpa using h
    simp [hzero]

/-- **Bids back, less the price for the winner, plus the price for the treasury.** -/
theorem PayoutPlan.received_eq {ps : List Payment} (h : PayoutPlan a finalized ps)
    (hnobody : finalized.sold = false → finalized.winner = none) (holder : Address) :
    received holder ps + priceOf finalized holder =
      received holder (a.bids.map refund) + proceedsOf a finalized holder := by
  unfold priceOf proceedsOf
  cases h with
  | unsold hsold hprice => simp [hnobody hsold, hprice]
  | @sold before after winning _ hbids hwinner hamount hprice =>
      have hsplit : (saturatingSub finalized.winningBid finalized.clearingPrice).toNat
          + finalized.clearingPrice.toNat = winning.amount.toNat := by
        rw [UInt64.le_iff_toNat_le] at hprice
        rw [toNat_saturatingSub, ← hamount]
        omega
      rw [hbids, hwinner, List.map_append, List.map_cons]
      simp only [received_append, received_ifPositive, received_cons, refund, Option.some.injEq]
      split <;> split <;> omega

theorem payouts_received {nowUnix : UInt64} (h : settleVickrey a nowUnix = some finalized) (holder : Address) :
    received holder (payouts a finalized a.bids false) + priceOf finalized holder =
      received holder (a.bids.map refund) + proceedsOf a finalized holder := by
  apply (payouts_plan h).received_eq
  intro hunsold
  rcases settleVickrey_spec h with ⟨_, hwinner, _⟩ | ⟨hsold, _⟩
  · exact hwinner
  · cases hunsold.symm.trans hsold

/-! ## The books of one account -/

/-- What an account has in an auction: its bids, or the price it paid. -/
def staked (s : State) (asset holder : Address) (name : Bytes) : Nat :=
  match s.auction name, s.settlement name with
  | some a, none           => if a.asset = asset then received holder (a.bids.map refund) else 0
  | some a, some finalized => if a.asset = asset then priceOf finalized holder else 0
  | none, _                => 0

/-- What an account got out of an auction as its treasury. -/
def earned (s : State) (asset holder : Address) (name : Bytes) : Nat :=
  match s.auction name, s.settlement name with
  | some a, some finalized => if a.asset = asset then proceedsOf a finalized holder else 0
  | _, _                   => 0

/-- What the contract holds for others. -/
def heldFor (s : State) (self asset holder : Address) (name : Bytes) : Nat :=
  if holder = self then owed s asset name else 0

/-- **The account is balanced**: up to what it staked, earned and holds for others, it has what it had. -/
def Balanced (tk : Exact out.transfer) (self asset holder : Address) (w₀ : ω) (sw : State × ω) : Prop :=
  tk.balance asset holder sw.2 + tally (staked sw.1 asset holder) sw.1.auctionNames =
    tk.balance asset holder w₀ + tally (earned sw.1 asset holder) sw.1.auctionNames +
      tally (heldFor sw.1 self asset holder) sw.1.auctionNames

theorem staked_open (ha : s.auction name = some a) (hopen : s.settlement name = none) :
    staked s asset holder name = if a.asset = asset then received holder (a.bids.map refund) else 0 := by
  simp only [staked, ha, hopen]

theorem staked_settled (ha : s.auction name = some a) (hsettled : s.settlement name = some finalized) :
    staked s asset holder name = if a.asset = asset then priceOf finalized holder else 0 := by
  simp only [staked, ha, hsettled]

theorem earned_open (hopen : s.settlement name = none) : earned s asset holder name = 0 := by
  unfold earned
  rw [hopen]
  cases s.auction name <;> rfl

theorem earned_settled (ha : s.auction name = some a) (hsettled : s.settlement name = some finalized) :
    earned s asset holder name = if a.asset = asset then proceedsOf a finalized holder else 0 := by
  simp only [earned, ha, hsettled]

/-- The books of a name depend on what is stored under it. -/
theorem books_congr (self asset holder : Address) {n : Bytes} (hauction : s'.auction n = s.auction n)
    (hsettlement : s'.settlement n = s.settlement n) :
    staked s' asset holder n = staked s asset holder n ∧ earned s' asset holder n = earned s asset holder n ∧
      heldFor s' self asset holder n = heldFor s self asset holder n := by
  refine ⟨?_, ?_, ?_⟩
  · simp only [staked, hauction, hsettlement]
  · simp only [earned, hauction, hsettlement]
  · simp only [heldFor, owed_congr hauction hsettlement]

/-! ## One step -/

/-- Nothing that the books are about changes. -/
theorem Balanced.of_same {w₀ : ω} {tk : Exact out.transfer} (hauction : s'.auction = s.auction)
    (hsettlement : s'.settlement = s.settlement) (hnames : s'.auctionNames = s.auctionNames)
    (h : Balanced tk self asset holder w₀ (s, w)) : Balanced tk self asset holder w₀ (s', w) := by
  have hbooks := fun n => books_congr self asset holder (congrFun hauction n) (congrFun hsettlement n)
  unfold Balanced at h ⊢
  simp only [hnames]
  rw [tally_congr fun n _ => (hbooks n).1, tally_congr fun n _ => (hbooks n).2.1, tally_congr fun n _ => (hbooks n).2.2]
  exact h

/-- **The books of one name change, by what the balance moves.** -/
theorem Balanced.of_change {w₀ : ω} {tk : Exact out.transfer} (hrecords : Recorded s) (ha : s.auction name = some a)
    (hnames : s'.auctionNames = s.auctionNames)
    (hother : ∀ n, n ≠ name → s'.auction n = s.auction n ∧ s'.settlement n = s.settlement n)
    (hmoved : tk.balance asset holder w' + staked s' asset holder name + earned s asset holder name +
        heldFor s self asset holder name =
      tk.balance asset holder w + staked s asset holder name + earned s' asset holder name +
        heldFor s' self asset holder name)
    (h : Balanced tk self asset holder w₀ (s, w)) : Balanced tk self asset holder w₀ (s', w') := by
  have hmem : name ∈ s.auctionNames := (hrecords.indexed.enumerates.mem_iff name).mpr ⟨a, ha⟩
  have hbooks := fun n hn => books_congr self asset holder (hother n hn).1 (hother n hn).2
  have hstaked := tally_change hrecords.indexed.enumerates.nodup hmem fun n hn => (hbooks n hn).1
  have hearned := tally_change hrecords.indexed.enumerates.nodup hmem fun n hn => (hbooks n hn).2.1
  have hheld := tally_change hrecords.indexed.enumerates.nodup hmem fun n hn => (hbooks n hn).2.2
  unfold Balanced at h ⊢
  simp only [hnames] at h ⊢
  omega

/-- A new auction has no books yet. -/
theorem Balanced.of_create {w₀ : ω} {tk : Exact out.transfer} {fresh : Auction} (hrecords : Recorded s)
    (hnone : s.auction name = none) (hbids : fresh.bids = []) (hauction : s'.auction = s.auction.set name fresh)
    (hsettlement : s'.settlement = s.settlement) (hnames : s'.auctionNames = s.auctionNames ++ [name])
    (h : Balanced tk self asset holder w₀ (s, w)) : Balanced tk self asset holder w₀ (s', w) := by
  have hfresh : s'.auction name = some fresh := by
    rw [hauction, Store.set_self]
  have hopen : s'.settlement name = none := by
    rw [hsettlement]
    exact hrecords.unsettled hnone
  have hbooks : ∀ n ∈ s.auctionNames, staked s' asset holder n = staked s asset holder n ∧
      earned s' asset holder n = earned s asset holder n ∧ heldFor s' self asset holder n = heldFor s self asset holder n := by
    intro n hn
    have hne : n ≠ name := by
      rintro rfl
      obtain ⟨a, ha⟩ := (hrecords.indexed.enumerates.mem_iff n).mp hn
      cases ha.symm.trans hnone
    exact books_congr self asset holder (by rw [hauction, Store.set_ne _ _ hne]) (by rw [hsettlement])
  have hstaked : staked s' asset holder name = 0 := by
    rw [staked_open hfresh hopen, hbids, List.map_nil, received_nil, ite_self]
  have hheld : heldFor s' self asset holder name = 0 := by
    unfold heldFor
    rw [owed_open hfresh hopen, hbids, List.map_nil, total_nil, ite_self, ite_self]
  unfold Balanced at h ⊢
  simp only [hnames, tally_append, tally_cons, tally_nil, hstaked, earned_open hopen, hheld]
  rw [tally_congr fun n hn => (hbooks n hn).1, tally_congr fun n hn => (hbooks n hn).2.1,
    tally_congr fun n hn => (hbooks n hn).2.2]
  exact h

/-- What a bid moves. -/
theorem bid_moved {bidder : Address} {bid : Bid} (tk : Exact out.transfer) (hbidder : bid.bidder = bidder)
    (ha : s.auction name = some a) (hopen : s.settlement name = none)
    (hpaid : out.transfer (env.callFrom self) a.asset bidder self bid.amount w = some w')
    (hauction : s'.auction = s.auction.set name { a with bids := a.bids ++ [bid] })
    (hsettlement : s'.settlement = s.settlement) (asset holder : Address) :
    tk.balance asset holder w' + staked s' asset holder name + earned s asset holder name +
        heldFor s self asset holder name =
      tk.balance asset holder w + staked s asset holder name + earned s' asset holder name +
        heldFor s' self asset holder name := by
  have ha' : s'.auction name = some { a with bids := a.bids ++ [bid] } := by
    rw [hauction, Store.set_self]
  have hopen' : s'.settlement name = none := by
    rw [hsettlement]
    exact hopen
  unfold heldFor
  rw [earned_open hopen, earned_open hopen', staked_open ha hopen, staked_open ha' hopen',
    owed_bid ha hopen hauction hsettlement]
  by_cases hasset : a.asset = asset
  · subst hasset
    simp only [if_true, List.map_append, List.map_cons, List.map_nil, received_append, received_cons, received_nil,
      refund, hbidder]
    by_cases hself : bidder = self
    -- a bid of the contract itself moves nothing, and is owed to it
    · subst hself
      by_cases hholder : holder = bidder
      · subst hholder
        have hsame := tk.same hpaid
        simp only [if_true]
        omega
      · have hframe := tk.frame (a := a.asset) (h := holder) hpaid (Or.inr ⟨hholder, hholder⟩)
        rw [if_neg hholder, if_neg hholder, if_neg (Ne.symm hholder)]
        omega
    · by_cases hholder : holder = bidder
      · subst hholder
        have hdebit := tk.debit hpaid hself
        rw [if_neg hself, if_neg hself, if_pos rfl]
        omega
      · by_cases hcontract : holder = self
        · subst hcontract
          have hcredit := tk.credit hpaid hself
          simp only [if_true, if_neg hself]
          omega
        · have hframe := tk.frame (a := a.asset) (h := holder) hpaid (Or.inr ⟨hholder, hcontract⟩)
          rw [if_neg hcontract, if_neg hcontract, if_neg (Ne.symm hholder)]
          omega
  · have hframe := tk.frame (h := holder) hpaid (Or.inl (Ne.symm hasset))
    simp only [if_neg hasset, Nat.add_zero]
    omega

/-- What a settlement moves. -/
theorem settle_moved {nowUnix : UInt64} (tk : Exact out.transfer) (ha : s.auction name = some a)
    (hopen : s.settlement name = none) (hfinal : settleVickrey a nowUnix = some finalized)
    (hauction : s'.auction = s.auction) (hsettlement : s'.settlement = s.settlement.set name finalized)
    (hpaid : transferAll out.transfer (env.callFrom self) a.asset self
      (payouts a finalized a.bids false) w = some w') (asset holder : Address) :
    tk.balance asset holder w' + staked s' asset holder name + earned s asset holder name +
        heldFor s self asset holder name =
      tk.balance asset holder w + staked s asset holder name + earned s' asset holder name +
        heldFor s' self asset holder name := by
  have ha' : s'.auction name = some a := by
    rw [hauction]
    exact ha
  have hsettled : s'.settlement name = some finalized := by
    rw [hsettlement, Store.set_self]
  have hreceived := payouts_received hfinal holder
  have htotal := (payouts_plan hfinal).total_eq
  unfold heldFor
  rw [earned_open hopen, earned_settled ha' hsettled, staked_open ha hopen, staked_settled ha' hsettled,
    owed_open ha hopen, owed_settled hsettled]
  by_cases hasset : a.asset = asset
  · subst hasset
    simp only [if_true]
    by_cases hself : holder = self
    · subst hself
      have hpayer := tk.transferAll_payer_eq hpaid
      simp only [if_true]
      omega
    · have hholder := tk.transferAll_holder hself hpaid
      rw [if_neg hself, if_neg hself]
      omega
  · have hframe : tk.balance asset holder w' = tk.balance asset holder w :=
      tk.transferAll_frame (fun heq => hasset heq.symm) hpaid
    simp only [if_neg hasset]
    split <;> omega

/-- **Every committed invocation keeps every account balanced.** -/
theorem step_balanced {w₀ : ω} {t : Tx Call} (tk : Exact out.transfer) (hrecords : Recorded s)
    (hok : step out self (s, w) t = .ok (s', w')) (h : Balanced tk self asset holder w₀ (s, w)) :
    Balanced tk self asset holder w₀ (s', w') := by
  have hnames := step_auctionNames hok
  obtain ⟨env, c⟩ := t
  cases step_change hok with
  | quiet hadmin hauction hsettlement hworld =>
      subst hworld
      have hnone : c.created = [] := by
        cases c with
        | createAuction => cases hadmin
        | _ => rfl
      exact h.of_same hauction hsettlement (by rw [hnames, hnone, List.append_nil])
  | noBids _ _ hauction hsettlement hworld =>
      subst hworld
      exact h.of_same hauction hsettlement (hnames.trans (List.append_nil _))
  | create hnone hauction hsettlement hworld =>
      subst hworld
      exact h.of_create hrecords hnone rfl hauction hsettlement hnames
  | bid ha hopen _ _ hpaid hauction hsettlement =>
      refine h.of_change hrecords ha (hnames.trans (List.append_nil _)) ?_
        (bid_moved tk rfl ha hopen hpaid hauction hsettlement asset holder)
      intro n hn
      exact ⟨by rw [hauction, Store.set_ne _ _ hn], by rw [hsettlement]⟩
  | settle ha hopen _ hfinal hauction hsettlement hpaid =>
      refine h.of_change hrecords ha (hnames.trans (List.append_nil _)) ?_
        (settle_moved tk ha hopen hfinal hauction hsettlement hpaid asset holder)
      intro n hn
      exact ⟨by rw [hauction], by rw [hsettlement, Store.set_ne _ _ hn]⟩

/-! ## Whole runs -/

/-- **Every account is balanced after every run.** From a fresh deployment on, with exact tokens, whoever creates auctions,
    bids and settles, in any order and any assets: what an account has of an asset, plus its bids in open auctions and the
    prices of the auctions it won, is what it had at first, plus the prices of the auctions whose treasury it is. The
    contract has besides exactly the bids of all open auctions. -/
theorem accounts_balanced (tk : Exact out.transfer) (self asset holder : Address) (w : ω) (ts : List (Tx Call)) :
    Balanced tk self asset holder w (run (step out self) (State.empty, w) ts) := by
  let Inv : State × ω → Prop := fun sw => Recorded sw.1 ∧ Balanced tk self asset holder w sw
  have hpreserves : Preserves (step out self) Inv := by
    rintro ⟨s, w⟩ t ⟨s', w'⟩ ⟨hrecords, hbalanced⟩ hok
    exact ⟨step_recorded hrecords hok, step_balanced tk hrecords hok hbalanced⟩
  have hfirst : Inv (State.empty, w) := ⟨recorded_empty, rfl⟩
  exact (hpreserves.run ts hfirst).2

end XlmNs.Auctions
