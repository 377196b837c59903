import XlmNs.Auctions.Steps
import XlmNs.Soroban.Machine

/-!
# `Auctions.Correctness.Solvency` — the contract can always pay back its bidders

All auctions in an asset share one account. `Solvent`: that account covers the bids of every unsettled auction in
the asset at once. Bids add to both sides, a settlement pays out exactly what its bids amounted to
(`PayoutPlan`): every bid in full except one winning bid, which is split between its bidder and the treasury.

The tokens are assumed exact (`Exact`), and no invocation carries the contract's own authority: it has no
`__check_auth` and never calls itself.
-/

namespace XlmNs.Auctions

open Soroban

variable {ω : Type} {out : Outside ω} {self : Address} {env : Env} {s s' : State} {w w' : ω}
variable {name : Bytes} {a : Auction} {asset : Address}

/-! ## What a settlement pays -/

/-- **The payments a settlement owes.** Unsold: all bids back. Sold: all bids back but one, which made the
    winning bid for the winner; of that one the clearing price goes to the treasury and the rest back. -/
inductive PayoutPlan (a : Auction) (finalized : Settlement) : List Payment → Prop
  | unsold (hsold : finalized.sold = false) (hprice : finalized.clearingPrice = 0) :
      PayoutPlan a finalized (a.bids.map refund)
  | sold {before after : List Bid} {winning : Bid} (hsold : finalized.sold = true)
      (hbids : a.bids = before ++ winning :: after) (hwinner : finalized.winner = some winning.bidder)
      (hamount : finalized.winningBid = winning.amount)
      (hprice : finalized.clearingPrice ≤ finalized.winningBid) :
      PayoutPlan a finalized (before.map refund ++
        (ifPositive (winning.bidder, saturatingSub finalized.winningBid finalized.clearingPrice) ++
          (ifPositive (a.treasury, finalized.clearingPrice) ++ after.map refund)))

/-- After the winning bid every bid is refunded. -/
theorem payouts_paid (finalized : Settlement) (bids : List Bid) :
    payouts a finalized bids true = bids.map refund := by
  induction bids with
  | nil => rfl
  | cons bid bids ih =>
      unfold payouts
      have hpaid : ¬ (finalized.sold = true ∧ finalized.winner = some bid.bidder ∧
          bid.amount = finalized.winningBid ∧ true = false) := by
        rintro ⟨_, _, _, hpaid⟩
        cases hpaid
      rw [if_neg hpaid, ih]
      rfl

theorem payouts_unsold {finalized : Settlement} (hsold : finalized.sold = false) (bids : List Bid) :
    payouts a finalized bids false = bids.map refund := by
  induction bids with
  | nil => rfl
  | cons bid bids ih =>
      unfold payouts
      have hlost : ¬ (finalized.sold = true ∧ finalized.winner = some bid.bidder ∧
          bid.amount = finalized.winningBid ∧ false = false) := by
        rintro ⟨hsold', _⟩
        rw [hsold] at hsold'
        cases hsold'
      rw [if_neg hlost, ih]
      rfl

/-- The loop finds a winning bid if there is one, the first in the list. -/
theorem payouts_sold {finalized : Settlement} (hsold : finalized.sold = true) {bids : List Bid}
    (hwin : ∃ bid ∈ bids, finalized.winner = some bid.bidder ∧ bid.amount = finalized.winningBid) :
    ∃ before winning after, bids = before ++ winning :: after ∧
      finalized.winner = some winning.bidder ∧ finalized.winningBid = winning.amount ∧
      payouts a finalized bids false = before.map refund ++
        (ifPositive (winning.bidder, saturatingSub finalized.winningBid finalized.clearingPrice) ++
          (ifPositive (a.treasury, finalized.clearingPrice) ++ after.map refund)) := by
  induction bids with
  | nil =>
      obtain ⟨_, hmem, _⟩ := hwin
      cases hmem
  | cons bid bids ih =>
      by_cases hbid : finalized.winner = some bid.bidder ∧ bid.amount = finalized.winningBid
      · refine ⟨[], bid, bids, rfl, hbid.1, hbid.2.symm, ?_⟩
        unfold payouts
        rw [if_pos ⟨hsold, hbid.1, hbid.2, rfl⟩, payouts_paid, hbid.2]
        rfl
      · obtain ⟨win, hmem, hwin⟩ := hwin
        have hrest : win ∈ bids := by
          rcases List.mem_cons.mp hmem with rfl | hmem
          · exact absurd hwin hbid
          · exact hmem
        obtain ⟨before, winning, after, hsplit, h1, h2, hpay⟩ := ih ⟨win, hrest, hwin⟩
        refine ⟨bid :: before, winning, after, by rw [hsplit]; rfl, h1, h2, ?_⟩
        have hnot : ¬ (finalized.sold = true ∧ finalized.winner = some bid.bidder ∧
            bid.amount = finalized.winningBid ∧ false = false) := by
          rintro ⟨_, h1, h2, _⟩
          exact hbid ⟨h1, h2⟩
        unfold payouts
        rw [if_neg hnot, hpay]
        rfl

/-- **The payout loop follows the plan.** The search for the winner and the search of the payout loop agree. -/
theorem payouts_plan {finalized : Settlement} {nowUnix : UInt64}
    (h : settleVickrey a nowUnix = some finalized) :
    PayoutPlan a finalized (payouts a finalized a.bids false) := by
  rcases settleVickrey_spec h with ⟨hsold, _, hprice⟩ | ⟨hsold, hprice, win, hmem, hwinner, hamount, _⟩
  · rw [payouts_unsold hsold]
    exact .unsold hsold hprice
  · obtain ⟨before, winning, after, hsplit, h1, h2, hpay⟩ :=
      payouts_sold (a := a) hsold ⟨win, hmem, hwinner, hamount.symm⟩
    rw [hpay]
    exact .sold hsold hsplit h1 h2 hprice

theorem total_ifPositive (p : Payment) : total (ifPositive p) = p.2.toNat := by
  unfold ifPositive
  split
  · simp
  · rename_i h
    have hzero : p.2.toNat = 0 := by
      rw [UInt64.lt_iff_toNat_lt] at h
      simpa using h
    simp [hzero]

/-- **A plan pays out exactly the sum of the bids.** -/
theorem PayoutPlan.total_eq {finalized : Settlement} {ps : List Payment}
    (h : PayoutPlan a finalized ps) : total ps = total (a.bids.map refund) := by
  cases h with
  | unsold => rfl
  | @sold before after winning _ hbids _ hamount hprice =>
      have hsplit : (saturatingSub finalized.winningBid finalized.clearingPrice).toNat
          + finalized.clearingPrice.toNat = winning.amount.toNat := by
        rw [UInt64.le_iff_toNat_le] at hprice
        rw [toNat_saturatingSub, ← hamount]
        omega
      rw [hbids, List.map_append, List.map_cons]
      simp only [total_append, total_ifPositive, total_cons, refund]
      omega

/-! ## What is owed -/

/-- The bids of an unsettled auction in `asset`. -/
def owed (s : State) (asset : Address) (name : Bytes) : Nat :=
  match s.auction name, s.settlement name with
  | some a, none => if a.asset = asset then total (a.bids.map refund) else 0
  | _, _ => 0

theorem owed_open (ha : s.auction name = some a) (hopen : s.settlement name = none) :
    owed s asset name = if a.asset = asset then total (a.bids.map refund) else 0 := by
  simp only [owed, ha, hopen]

theorem owed_absent (ha : s.auction name = none) : owed s asset name = 0 := by
  simp only [owed, ha]

theorem owed_settled {finalized : Settlement} (h : s.settlement name = some finalized) :
    owed s asset name = 0 := by
  unfold owed
  rw [h]
  split
  · rename_i h1 h2
    cases h2
  · rfl

theorem owed_congr (hauction : s'.auction name = s.auction name)
    (hsettlement : s'.settlement name = s.settlement name) : owed s' asset name = owed s asset name := by
  simp only [owed, hauction, hsettlement]

/-- **Solvency**: the contract's balance of each asset covers the bids of all unsettled auctions in it. -/
def Solvent (tk : Exact out.transfer) (self : Address) (sw : State × ω) : Prop :=
  ∀ asset, Covered (owed sw.1 asset) (tk.balance asset self sw.2)

/-! ## One step -/

/-- What is owed after a bid of `amount` on `a`. -/
theorem owed_bid {bid : Bid} (ha : s.auction name = some a) (hopen : s.settlement name = none)
    (hauction : s'.auction = s.auction.set name { a with bids := a.bids ++ [bid] })
    (hsettlement : s'.settlement = s.settlement) :
    owed s' asset name = owed s asset name + if a.asset = asset then bid.amount.toNat else 0 := by
  have ha' : s'.auction name = some { a with bids := a.bids ++ [bid] } := by
    rw [hauction, Store.set_self]
  have hopen' : s'.settlement name = none := by
    rw [hsettlement]
    exact hopen
  rw [owed_open ha' hopen', owed_open ha hopen]
  by_cases hasset : a.asset = asset
  · simp [hasset, total_append, refund]
  · simp [hasset]

/-- A new auction owes nothing yet. -/
theorem owed_create {fresh : Auction} (hnone : s.auction name = none) (hbids : fresh.bids = [])
    (hauction : s'.auction = s.auction.set name fresh) (hsettlement : s'.settlement = s.settlement)
    (n : Bytes) : owed s' asset n = owed s asset n := by
  by_cases hn : n = name
  · subst hn
    have hfresh : s'.auction n = some fresh := by rw [hauction, Store.set_self]
    rw [owed_absent hnone]
    cases hsettled : s'.settlement n with
    | some finalized => exact owed_settled hsettled
    | none =>
        rw [owed_open hfresh hsettled, hbids]
        simp
  · exact owed_congr (by rw [hauction, Store.set_ne _ _ hn]) (by rw [hsettlement])

/-- **A bid is paid in**: the contract holds as much more as it owes. -/
theorem solvent_bid {bidder : Address} {bid : Bid} (tk : Exact out.transfer) (hne : bidder ≠ self)
    (ha : s.auction name = some a) (hopen : s.settlement name = none)
    (hpaid : out.transfer (env.callFrom self) a.asset bidder self bid.amount w = some w')
    (hauction : s'.auction = s.auction.set name { a with bids := a.bids ++ [bid] })
    (hsettlement : s'.settlement = s.settlement) (h : Solvent tk self (s, w)) :
    Solvent tk self (s', w') := by
  intro asset
  have hother : ∀ n, n ≠ name → owed s' asset n = owed s asset n := by
    intro n hn
    exact owed_congr (by rw [hauction, Store.set_ne _ _ hn]) (by rw [hsettlement])
  have hnew : owed s' asset name = owed s asset name
      + if a.asset = asset then bid.amount.toNat else 0 :=
    owed_bid ha hopen hauction hsettlement
  by_cases hasset : a.asset = asset
  · subst hasset
    rw [if_pos rfl] at hnew
    show Covered _ (tk.balance a.asset self w')
    rw [tk.credit hpaid hne]
    exact (h a.asset).take_on hother hnew.le
  · -- the bid is in another asset
    rw [if_neg hasset, Nat.add_zero] at hnew
    have hsame : ∀ n, owed s' asset n = owed s asset n := by
      intro n
      by_cases hn : n = name
      · rw [hn]
        exact hnew
      · exact hother n hn
    have hheld : tk.balance asset self w' = tk.balance asset self w :=
      tk.frame hpaid (Or.inl (fun heq => hasset heq.symm))
    exact (h asset).congr hsame hheld.ge

/-- **A settlement pays out what it no longer owes.** -/
theorem solvent_settle {finalized : Settlement} {nowUnix : UInt64} (tk : Exact out.transfer)
    (ha : s.auction name = some a) (hopen : s.settlement name = none)
    (hfinal : settleVickrey a nowUnix = some finalized) (hauction : s'.auction = s.auction)
    (hsettlement : s'.settlement = s.settlement.set name finalized)
    (hpaid : transferAll out.transfer (env.callFrom self) a.asset self
      (payouts a finalized a.bids false) w = some w') (h : Solvent tk self (s, w)) :
    Solvent tk self (s', w') := by
  intro asset
  have hother : ∀ n, n ≠ name → owed s' asset n = owed s asset n := by
    intro n hn
    exact owed_congr (by rw [hauction]) (by rw [hsettlement, Store.set_ne _ _ hn])
  have hgone : owed s' asset name = 0 :=
    owed_settled (by rw [hsettlement]; exact Store.set_self _ _ _)
  by_cases hasset : a.asset = asset
  · subst hasset
    have hcost : tk.balance a.asset self w ≤ tk.balance a.asset self w' + owed s a.asset name := by
      rw [owed_open ha hopen, if_pos rfl, ← (payouts_plan hfinal).total_eq]
      exact tk.transferAll_payer hpaid
    exact (h a.asset).discharge hother hgone hcost
  · -- the auction is in another asset: it owed nothing in this one
    have hsame : ∀ n, owed s' asset n = owed s asset n := by
      intro n
      by_cases hn : n = name
      · rw [hn, hgone, owed_open ha hopen, if_neg hasset]
      · exact hother n hn
    have hheld : tk.balance asset self w' = tk.balance asset self w :=
      tk.transferAll_frame (fun heq => hasset heq.symm) hpaid
    exact (h asset).congr hsame hheld.ge

/-- **Every change keeps the contract solvent.** -/
theorem Change.solvent {c : Call} (hc : Change out self env s w s' w' c) (tk : Exact out.transfer)
    (hforeign : ¬ env.Authorises self) (h : Solvent tk self (s, w)) : Solvent tk self (s', w') := by
  cases hc with
  | quiet _ hauction hsettlement hworld =>
      subst hworld
      intro asset
      have hsame : ∀ n, owed s' asset n = owed s asset n := by
        intro n
        exact owed_congr (congrFun hauction n) (congrFun hsettlement n)
      exact (h asset).congr hsame (Nat.le_refl _)
  | noBids _ _ hauction hsettlement hworld =>
      subst hworld
      intro asset
      have hsame : ∀ n, owed s' asset n = owed s asset n := by
        intro n
        exact owed_congr (congrFun hauction n) (congrFun hsettlement n)
      exact (h asset).congr hsame (Nat.le_refl _)
  | create hnone hauction hsettlement hworld =>
      subst hworld
      intro asset
      exact (h asset).congr (owed_create hnone rfl hauction hsettlement) (Nat.le_refl _)
  | @bid _ bidder _ _ _ ha hopen hauth _ hpaid hauction hsettlement =>
      -- the contract never bids itself, so the transfer is a credit
      have hne : bidder ≠ self := by
        rintro rfl
        exact hforeign hauth
      exact solvent_bid tk hne ha hopen hpaid hauction hsettlement h
  | settle ha hopen _ hfinal hauction hsettlement hpaid =>
      exact solvent_settle tk ha hopen hfinal hauction hsettlement hpaid h

/-- **A recorded settlement pays by the plan**: exactly its list of payments is executed, they add up to the
    bids, and every holder but the contract receives exactly what the list pays them. -/
def SettlesExactly (tk : Exact out.transfer) (self : Address) (sw : State × ω) (t : Tx Call) : Prop :=
  ∀ name nowUnix sw' finalized, t.call = .settle name nowUnix → step out self sw t = .ok sw' →
    sw'.1.settlement name = some finalized →
      ∃ a payments, sw.1.auction name = some a ∧ PayoutPlan a finalized payments ∧
        total payments = total (a.bids.map refund) ∧
        transferAll out.transfer (t.env.callFrom self) a.asset self payments sw.2 = some sw'.2 ∧
        ∀ holder, holder ≠ self → tk.balance a.asset holder sw'.2
          = tk.balance a.asset holder sw.2 + received holder payments

/-- A committed `settle` that leaves a settlement behind recorded it itself. -/
theorem settle_recorded {sw sw' : State × ω} {nowUnix : UInt64} {finalized : Settlement}
    (h : step out self sw ⟨env, .settle name nowUnix⟩ = .ok sw')
    (hsome : sw'.1.settlement name = some finalized) :
    ∃ a, sw.1.auction name = some a ∧ settleVickrey a nowUnix = some finalized ∧
      transferAll out.transfer (env.callFrom self) a.asset self (payouts a finalized a.bids false) sw.2
        = some sw'.2 := by
  have hnone : sw.1.settlement name = none := by
    simp only [step, settle, bind_eq_ok, require_eq_ok, exists_const] at h
    obtain ⟨_, ⟨_, _, hnone, _⟩, _⟩ := h
    exact hnone
  cases step_change h with
  | quiet hadmin _ _ _ => cases hadmin
  | noBids _ _ _ hsettlement _ =>
      rw [hsettlement, hnone] at hsome
      cases hsome
  | settle ha _ _ hfinal _ hsettlement hpaid =>
      rw [hsettlement, Store.set_self] at hsome
      obtain rfl := Option.some.inj hsome
      exact ⟨_, ha, hfinal, hpaid⟩

theorem settlesExactly (tk : Exact out.transfer) (self : Address) (sw : State × ω) (t : Tx Call) :
    SettlesExactly tk self sw t := by
  obtain ⟨env, c⟩ := t
  rintro name nowUnix sw' finalized rfl h hsome
  obtain ⟨a, ha, hfinal, hpaid⟩ := settle_recorded h hsome
  have hplan : PayoutPlan a finalized (payouts a finalized a.bids false) := payouts_plan hfinal
  refine ⟨a, payouts a finalized a.bids false, ha, hplan, hplan.total_eq, hpaid, ?_⟩
  intro holder hne
  exact tk.transferAll_holder hne hpaid

/-! ## Whole runs -/

theorem solvent_empty (tk : Exact out.transfer) (self : Address) (w : ω) :
    Solvent tk self (State.empty, w) := by
  intro asset
  exact Covered.nothing (fun _ => rfl) _

/-- **Conservation and solvency.** Over any run of the auction contract from a fresh deployment, with exact tokens
    and no invocation on the contract's own authority: the contract's balance of each asset covers the bids of
    all unsettled auctions in it, and every settlement recorded on the way paid out exactly its bids. -/
theorem solvent_and_exact (tk : Exact out.transfer) (w : ω) {ts : List (Tx Call)}
    (hforeign : ∀ t ∈ ts, ¬ t.env.Authorises self) :
    Solvent tk self (run (step out self) (State.empty, w) ts) ∧
      Along (step out self) (SettlesExactly tk self) (State.empty, w) ts := by
  have hsolvent : ∀ sw, Solvent tk self sw → Solvent tk self (run (step out self) sw ts) := by
    induction ts with
    | nil =>
        intro sw h
        exact h
    | cons t ts ih =>
        intro sw h
        have hforeign' : ∀ u ∈ ts, ¬ u.env.Authorises self := by
          intro u hu
          exact hforeign u (List.mem_cons_of_mem _ hu)
        refine ih hforeign' _ ?_
        refine exec_of_ok h ?_
        intro sw' hok
        exact (step_change hok).solvent tk (hforeign t List.mem_cons_self) h
  refine ⟨hsolvent _ (solvent_empty tk self w), ?_⟩
  exact along_of_forall (settlesExactly tk self) ts _

/-! ## One auction on a plain ledger -/

namespace PlainLedger

open Cast

/-- The tokens of a plain ledger. -/
def outside : Outside (Address → Address → Nat) := ⟨ledgerTransfer⟩

/-- It moves exactly what it is asked to. -/
def exactOutside : Exact outside.transfer := ledgerExact

/-- Everybody starts with 1000 of everything. -/
def purses : Address → Address → Nat := fun _ _ => 1000

/-- Alice bids 70 and Bob 50; the auction is settled at Bob's price. -/
def auctionRun : List (Tx Call) :=
  [⟨⟨10, [admin], none⟩, .initializeContract admin⟩,
   ⟨⟨20, [admin], none⟩, .createAuction aliceXlm usdc admin 10 100 200⟩,
   ⟨⟨110, [alice], none⟩, .placeBid aliceXlm alice 70 110⟩,
   ⟨⟨120, [bob], none⟩, .placeBid aliceXlm bob 50 120⟩,
   ⟨⟨300, [bob], none⟩, .settle aliceXlm 300⟩]

/-- No transaction of the run carries the contract's authority. -/
theorem auctionRun_foreign : ∀ t ∈ auctionRun, ¬ t.env.Authorises house := by decide

theorem auctionRun_solvent :
    Solvent exactOutside house
        (run (step outside house) (State.empty, purses) auctionRun) ∧
      Along (step outside house) (SettlesExactly exactOutside house)
        (State.empty, purses) auctionRun :=
  solvent_and_exact exactOutside purses auctionRun_foreign

/-- Alice is out of the clearing price only, Bob of nothing. -/
example : (run (step outside house) (State.empty, purses) auctionRun).2 usdc alice = 950 ∧
    (run (step outside house) (State.empty, purses) auctionRun).2 usdc bob = 1000 ∧
    (run (step outside house) (State.empty, purses) auctionRun).2 usdc admin = 1050 ∧
    (run (step outside house) (State.empty, purses) auctionRun).2 usdc house = 1000 := by
  decide +kernel

end PlainLedger

end XlmNs.Auctions
