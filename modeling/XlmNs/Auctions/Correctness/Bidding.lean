import Mathlib.Algebra.Order.Group.Int
import XlmNs.Auctions.Correctness.Accounts
import XlmNs.Auctions.Correctness.SecondPrice
import XlmNs.Soroban.Offers

/-!
# `Auctions.Correctness.Bidding` — how much to bid, and what more bids do

`best_bid_iff`: a bidder with one bid does best, whatever the others bid before and after, exactly with the amount the name
is worth to it. `price_never_falls`: bids only ever raise what an auction settles at.
-/

namespace XlmNs.Auctions

open Soroban

variable {ω : Type} {out : Outside ω} {self : Address} {env : Env} {s s' : State} {w w' : ω}
variable {name : Bytes} {a a' : Auction} {highest : Bid} {rest : List Bid} {finalized : Settlement}
variable {value amount settledAt : UInt64}

/-! ## An auction seen by one bidder -/

/-- **Everything but one bid.** The bidder made no other, and is not the one who is paid. -/
structure Contest where
  auction  : Auction
  me       : Address
  placedAt : UInt64
  pre      : List Bid
  post     : List Bid
  positive : ∀ bid ∈ pre ++ post, bid.amount ≠ 0
  rivals   : ∀ bid ∈ pre ++ post, bid.bidder ≠ me
  outsider : auction.treasury ≠ me

variable {c : Contest}

/-- My bid. -/
def Contest.bid (c : Contest) (amount : UInt64) : Bid := ⟨c.me, amount, c.placedAt⟩

/-- The auction with my bid. -/
def Contest.withBid (c : Contest) (amount : UInt64) : Auction :=
  { c.auction with bids := c.pre ++ c.bid amount :: c.post }

/-- Whether I get the name. -/
def Contest.wins (c : Contest) (settledAt amount : UInt64) : Bool :=
  decide ((settleVickrey (c.withBid amount) settledAt).bind Settlement.winner = some c.me)

/-- **What I have gained once the auction is settled**: the name, if I won it, and the payments to me, for what I paid in. -/
def Contest.gain (c : Contest) (value settledAt amount : UInt64) : Int :=
  match settleVickrey (c.withBid amount) settledAt with
  | some finalized =>
      (if finalized.winner = some c.me then (value.toNat : Int) else 0) +
        received c.me (payouts (c.withBid amount) finalized (c.withBid amount).bids false) - amount.toNat
  | none => -amount.toNat

/-- The reserve, or the highest bid of the others. -/
def Contest.price (c : Contest) : Nat := max c.auction.reservePrice.toNat (largest paid (c.pre ++ c.post))

theorem Contest.perm (c : Contest) (amount : UInt64) : (c.withBid amount).bids.Perm (c.bid amount :: (c.pre ++ c.post)) :=
  List.perm_middle

theorem Contest.firstMax (c : Contest) (amount : UInt64) : ∃ highest rest, FirstMax paid (c.withBid amount).bids highest rest := by
  apply FirstMax.exists
  intro hnil
  have hlength := congrArg List.length hnil
  simp [withBid] at hlength

/-- The one bid of mine is the only one that can make me win. -/
theorem Contest.highest_mine (h : FirstMax paid (c.withBid amount).bids highest rest) (hmine : highest.bidder = c.me) :
    highest = c.bid amount ∧ largest paid rest = largest paid (c.pre ++ c.post) := by
  have hmem : highest ∈ c.bid amount :: (c.pre ++ c.post) := (c.perm amount).mem_iff.mp h.mem
  have hbid : highest = c.bid amount := by
    rcases List.mem_cons.mp hmem with heq | hother
    · exact heq
    · exact absurd hmine (c.rivals highest hother)
  refine ⟨hbid, ?_⟩
  subst hbid
  have hrest : rest.Perm (c.pre ++ c.post) := (h.perm.symm.trans (c.perm amount)).cons_inv
  exact largest_eq_of_mem_iff fun bid => hrest.mem_iff

/-- **Winning, and what for.** -/
theorem Contest.won {settledAt : UInt64} (hwins : c.wins settledAt amount = true) :
    ∃ finalized, settleVickrey (c.withBid amount) settledAt = some finalized ∧ finalized.winner = some c.me ∧
      finalized.clearingPrice.toNat = c.price ∧ c.price ≤ amount.toNat := by
  obtain ⟨highest, rest, hfirst⟩ := c.firstMax amount
  have hsettled := settleVickrey_eq hfirst settledAt
  have hwinner := of_decide_eq_true hwins
  rw [hsettled, Option.bind_some] at hwinner
  obtain ⟨hmine, _, hprice⟩ := sold_eq hsettled hwinner hfirst
  obtain ⟨rfl, hlargest⟩ := highest_mine hfirst hmine
  have hclearing : (outcome (c.withBid amount).reservePrice settledAt (c.bid amount) rest).clearingPrice.toNat = c.price := by
    rw [hprice, toNat_secondPrice, hlargest]
    rfl
  refine ⟨_, hsettled, hwinner, hclearing, ?_⟩
  rw [← hclearing, hprice]
  have hreserve : ¬ (c.bid amount).amount < (c.withBid amount).reservePrice := by
    intro hlow
    rw [outcome, if_pos hlow] at hwinner
    cases hwinner
  exact UInt64.le_iff_toNat_le.mp (secondPrice_bounds hfirst hreserve).2

/-- A bid above all others and the reserve wins, and so does one that is only reached by later ones. -/
theorem Contest.wins_of (hreserve : ¬ amount < c.auction.reservePrice) (hpre : ∀ bid ∈ c.pre, paid bid < amount.toNat)
    (hpost : ∀ bid ∈ c.post, paid bid ≤ amount.toNat) (settledAt : UInt64) : c.wins settledAt amount = true := by
  have hfirst : FirstMax paid (c.withBid amount).bids (c.bid amount) (c.pre ++ c.post) :=
    ⟨c.pre, c.post, rfl, rfl, hpre, hpost⟩
  have hsold : outcome (c.withBid amount).reservePrice settledAt (c.bid amount) (c.pre ++ c.post) =
      { winner := some c.me, clearingPrice := secondPrice c.auction.reservePrice (c.pre ++ c.post), winningBid := amount
        settledAt, sold := true } := if_neg hreserve
  apply decide_eq_true
  rw [settleVickrey_eq hfirst settledAt, hsold]
  rfl

/-- **The others make an offer.** -/
def Contest.offer (c : Contest) (settledAt : UInt64) : Offer (fun amount : UInt64 => (amount.toNat : Int)) where
  price := c.price
  wins  := c.wins settledAt
  above amount h := by
    have hprice : c.price < amount.toNat := Int.ofNat_lt.mp h
    have hbelow : ∀ bid ∈ c.pre ++ c.post, paid bid < amount.toNat :=
      fun bid hbid => lt_of_le_of_lt ((le_largest hbid).trans (le_max_right _ _)) hprice
    refine wins_of ?_ (fun bid hbid => hbelow bid (List.mem_append_left _ hbid))
      (fun bid hbid => (hbelow bid (List.mem_append_right _ hbid)).le) settledAt
    rw [UInt64.lt_iff_toNat_lt]
    exact not_lt.mpr ((le_max_left _ _).trans hprice.le)
  below amount h := by
    obtain ⟨_, _, _, _, hle⟩ := won h
    exact Int.ofNat_le.mpr hle

/-- Of the refunds, mine is the only one to me. -/
theorem Contest.received_refunds (c : Contest) (amount : UInt64) :
    received c.me ((c.withBid amount).bids.map refund) = amount.toNat := by
  have hnone : ∀ bids : List Bid, (∀ bid ∈ bids, bid.bidder ≠ c.me) → received c.me (bids.map refund) = 0 := by
    intro bids h
    induction bids with
    | nil => rfl
    | cons bid bids ih =>
        rw [List.map_cons, received_cons, ih fun b hb => h b (List.mem_cons_of_mem _ hb)]
        exact congrArg (· + 0) (if_neg (h bid List.mem_cons_self))
  unfold withBid
  rw [List.map_append, List.map_cons, received_append, received_cons,
    hnone c.pre fun bid hbid => c.rivals bid (List.mem_append_left _ hbid),
    hnone c.post fun bid hbid => c.rivals bid (List.mem_append_right _ hbid)]
  simp [refund, bid]

/-- **The gain is the payoff of the offer.** -/
theorem Contest.gain_eq (c : Contest) (value settledAt amount : UInt64) :
    c.gain value settledAt amount = (c.offer settledAt).payoff (value.toNat : Int) amount := by
  have hlost : c.wins settledAt amount = false → ∀ finalized,
      settleVickrey (c.withBid amount) settledAt = some finalized → finalized.winner ≠ some c.me := by
    intro hwins finalized hsettled hwinner
    have hnot := of_decide_eq_false hwins
    rw [hsettled] at hnot
    exact hnot hwinner
  obtain ⟨highest, rest, hfirst⟩ := c.firstMax amount
  have hsettled := settleVickrey_eq hfirst settledAt
  generalize outcome (c.withBid amount).reservePrice settledAt highest rest = finalized at hsettled
  have hreceived := payouts_received hsettled c.me
  have hproceeds : proceedsOf (c.withBid amount) finalized c.me = 0 := if_neg c.outsider
  rw [c.received_refunds, hproceeds] at hreceived
  unfold gain Offer.payoff
  rw [hsettled]
  cases hwins : c.wins settledAt amount with
  | true =>
      obtain ⟨finalized', hsettled', hwinner, hprice, _⟩ := won hwins
      obtain rfl := Option.some.inj (hsettled.symm.trans hsettled')
      have hpaid : priceOf finalized c.me = c.price := by rw [priceOf, if_pos hwinner, hprice]
      have hoffer : ((c.offer settledAt).wins amount = true) := hwins
      simp only [if_pos hwinner, if_pos hoffer]
      show _ = (value.toNat : Int) - (c.price : Int)
      omega
  | false =>
      have hwinner := hlost hwins finalized hsettled
      have hpaid : priceOf finalized c.me = 0 := if_neg hwinner
      have hoffer : ¬ ((c.offer settledAt).wins amount = true) := Bool.not_eq_true _ ▸ hwins
      simp only [if_neg hwinner, if_neg hoffer]
      omega

/-- **The earliest of the highest bids wins**, if it reaches the reserve. -/
theorem Contest.wins_iff (c : Contest) (settledAt amount : UInt64) : c.wins settledAt amount = true ↔
    ¬ amount < c.auction.reservePrice ∧ (∀ bid ∈ c.pre, paid bid < amount.toNat) ∧
      ∀ bid ∈ c.post, paid bid ≤ amount.toNat := by
  constructor
  · intro hwins
    have hle : c.price ≤ amount.toNat := by
      obtain ⟨_, _, _, _, hle⟩ := won hwins
      exact hle
    refine ⟨?_, ?_, ?_⟩
    · rw [UInt64.lt_iff_toNat_lt]
      exact not_lt.mpr ((le_max_left _ _).trans hle)
    -- the bids in front of the first of the highest are lower, and my bid is on the list once
    · obtain ⟨highest, rest, hfirst⟩ := c.firstMax amount
      have hwinner := of_decide_eq_true hwins
      rw [settleVickrey_eq hfirst settledAt, Option.bind_some] at hwinner
      obtain ⟨hmine, _, _⟩ := sold_eq (settleVickrey_eq hfirst settledAt) hwinner hfirst
      obtain ⟨rfl, _⟩ := highest_mine hfirst hmine
      obtain ⟨pre, post, hsplit, _, hpre, _⟩ := hfirst
      have hnotpre : c.bid amount ∉ c.pre := fun hmem => c.rivals _ (List.mem_append_left _ hmem) rfl
      have hnotpost : c.bid amount ∉ c.post := fun hmem => c.rivals _ (List.mem_append_right _ hmem) rfl
      obtain ⟨rfl, _, _⟩ := (List.append_cons_inj_of_notMem hnotpre hnotpost).mp hsplit
      exact hpre
    · intro bid hbid
      exact ((le_largest (List.mem_append_right _ hbid)).trans (le_max_right _ _)).trans hle
  · rintro ⟨hreserve, hpre, hpost⟩
    exact wins_of hreserve hpre hpost settledAt

/-! ## The best bid -/

namespace Duel

/-- The bidder the results are about. -/
def me : Address := ⟨ascii "GME"⟩

/-- The other one. -/
def rival : Address := ⟨ascii "GRIVAL"⟩

/-- An auction of a rival's bid and mine, without a reserve. -/
def auction : Auction := ⟨ascii "duel.xlm", 0, 0, 9, [], Cast.usdc, Cast.treasury⟩

theorem rival_only {amount : UInt64} (hamount : amount ≠ 0) (bid : Bid) (hbid : bid ∈ [(⟨rival, amount, 1⟩ : Bid)]) :
    bid.amount ≠ 0 ∧ bid.bidder ≠ me := by
  obtain rfl := List.mem_singleton.mp hbid
  have hother : rival ≠ me := by decide
  exact ⟨hamount, hother⟩

/-- The rival was here first. -/
def second {amount : UInt64} (hamount : amount ≠ 0) : Contest where
  auction  := auction
  me       := me
  placedAt := 2
  pre      := [⟨rival, amount, 1⟩]
  post     := []
  positive bid hbid := (rival_only hamount bid hbid).1
  rivals   bid hbid := (rival_only hamount bid hbid).2
  outsider := by decide

/-- The rival comes later. -/
def first {amount : UInt64} (hamount : amount ≠ 0) : Contest where
  auction  := auction
  me       := me
  placedAt := 0
  pre      := []
  post     := [⟨rival, amount, 1⟩]
  positive bid hbid := (rival_only hamount bid hbid).1
  rivals   bid hbid := (rival_only hamount bid hbid).2
  outsider := by decide

theorem second_gain {amount : UInt64} (hamount : amount ≠ 0) (value mine : UInt64) :
    (second hamount).gain value 9 mine = if amount < mine then (value.toNat : Int) - amount.toNat else 0 := by
  have hwins : (second hamount).wins 9 mine = decide (amount < mine) := by
    rw [Bool.eq_iff_iff, Contest.wins_iff, decide_eq_true_iff]
    simp [second, auction, paid, UInt64.lt_iff_toNat_lt]
  have hprice : (second hamount).price = amount.toNat := by simp [Contest.price, second, auction, largest, paid]
  rw [Contest.gain_eq, Offer.payoff]
  show (if (second hamount).wins 9 mine = true then (value.toNat : Int) - (second hamount).price else 0) = _
  simp only [hwins, hprice, decide_eq_true_iff]

theorem first_gain {amount : UInt64} (hamount : amount ≠ 0) (value mine : UInt64) :
    (first hamount).gain value 9 mine = if amount ≤ mine then (value.toNat : Int) - amount.toNat else 0 := by
  have hwins : (first hamount).wins 9 mine = decide (amount ≤ mine) := by
    rw [Bool.eq_iff_iff, Contest.wins_iff, decide_eq_true_iff, UInt64.le_iff_toNat_le]
    simp [first, auction, paid]
  have hprice : (first hamount).price = amount.toNat := by simp [Contest.price, first, auction, largest, paid]
  rw [Contest.gain_eq, Offer.payoff]
  show (if (first hamount).wins 9 mine = true then (value.toNat : Int) - (first hamount).price else 0) = _
  simp only [hwins, hprice, decide_eq_true_iff]

end Duel

/-- **To bid what the name is worth is the best one can do, and nothing else is.** Against all other bids, whatever they are
    and whenever they are placed, no amount gains more than the value of the name; and an amount of which this holds is the
    value: against a lower bid somebody can win the name for less than it is worth, and with a higher one the bidder can be
    made to pay more. -/
theorem best_bid_iff (hamount : amount ≠ 0) :
    (∀ (c : Contest) (settledAt other : UInt64), c.gain value settledAt other ≤ c.gain value settledAt amount) ↔
      amount = value := by
  constructor
  · intro hbest
    rcases Nat.lt_trichotomy amount.toNat value.toNat with hlow | hsame | hhigh
    -- a rival who bid the same before
    · have hlt : amount < value := UInt64.lt_iff_toNat_lt.mpr hlow
      have hmissed := hbest (Duel.second hamount) 9 value
      rw [Duel.second_gain, Duel.second_gain, if_pos hlt, if_neg (UInt64.lt_irrefl amount)] at hmissed
      omega
    · exact UInt64.toNat_inj.mp hsame
    -- a rival who bids the same afterwards
    · have hlt : ¬ amount ≤ value := UInt64.not_le.mpr (UInt64.lt_iff_toNat_lt.mpr hhigh)
      have hover := hbest (Duel.first hamount) 9 value
      rw [Duel.first_gain, Duel.first_gain, if_pos (UInt64.le_refl amount), if_neg hlt] at hover
      omega
  · rintro rfl c settledAt other
    rw [c.gain_eq, c.gain_eq]
    exact (c.offer settledAt).truthful amount other

/-- A name worth 70. -/
theorem best_bid_seventy : (70 : UInt64) ≠ 0 ∧
    ∀ (c : Contest) (settledAt other : UInt64), c.gain 70 settledAt other ≤ c.gain 70 settledAt 70 :=
  ⟨by decide, (best_bid_iff (by decide)).mpr rfl⟩

/-- **The gain is what a committed settlement does to the balance of the bidder**, the name and the bid aside. -/
theorem settle_gain (tk : Exact out.transfer) {sw sw' : State × ω} {t : Tx Call} {nowUnix : UInt64}
    (hcall : t.call = .settle name nowUnix) (hok : step out self sw t = .ok sw') (hme : c.me ≠ self)
    (ha : sw.1.auction name = some (c.withBid amount)) (hsettled : sw'.1.settlement name = some finalized) :
    c.gain value nowUnix amount = (if finalized.winner = some c.me then (value.toNat : Int) else 0) +
      tk.balance c.auction.asset c.me sw'.2 - tk.balance c.auction.asset c.me sw.2 - amount.toNat := by
  obtain ⟨env, _⟩ := t
  obtain rfl := hcall
  obtain ⟨a, ha', hfinal, hpaid⟩ := settle_recorded hok hsettled
  obtain rfl := Option.some.inj (ha.symm.trans ha')
  have hholder : tk.balance c.auction.asset c.me sw'.2 = tk.balance c.auction.asset c.me sw.2 +
      received c.me (payouts (c.withBid amount) finalized (c.withBid amount).bids false) :=
    tk.transferAll_holder hme hpaid
  unfold Contest.gain
  rw [hfinal]
  dsimp only
  omega

/-! ## More bids -/

/-- At least as good for the treasury. -/
structure Settlement.Raises (f f' : Settlement) : Prop where
  winningBid    : f.winningBid ≤ f'.winningBid
  clearingPrice : f.clearingPrice ≤ f'.clearingPrice
  sold          : f.sold = true → f'.sold = true

theorem outcome_raises {highest' : Bid} {rest' : List Bid} {reserve settledAt settledAt' : UInt64}
    (hhighest : paid highest ≤ paid highest') (hrest : largest paid rest ≤ largest paid rest') :
    (outcome reserve settledAt highest rest).Raises (outcome reserve settledAt' highest' rest') := by
  have hamount : highest.amount ≤ highest'.amount := paid_le_iff.mp hhighest
  have hprice : secondPrice reserve rest ≤ secondPrice reserve rest' := by
    rw [UInt64.le_iff_toNat_le, toNat_secondPrice, toNat_secondPrice]
    exact max_le_max le_rfl hrest
  unfold outcome
  by_cases hlow : highest.amount < reserve
  · rw [if_pos hlow]
    split
    · exact ⟨hamount, UInt64.le_refl _, fun hsold => hsold⟩
    · exact ⟨hamount, UInt64.zero_le, fun _ => rfl⟩
  · have hlow' : ¬ highest'.amount < reserve := UInt64.not_lt.mpr (UInt64.le_trans (UInt64.not_lt.mp hlow) hamount)
    rw [if_neg hlow, if_neg hlow']
    exact ⟨hamount, hprice, fun hsold => hsold⟩

/-- **More bids raise the settlement**, wherever they stand in the list. -/
theorem settleVickrey_raises {settledAt settledAt' : UInt64} {f : Settlement} (hreserve : a'.reservePrice = a.reservePrice)
    (hsub : List.Subperm a.bids a'.bids) (h : settleVickrey a settledAt = some f) :
    ∃ f', settleVickrey a' settledAt' = some f' ∧ f.Raises f' := by
  have hbids : a.bids ≠ [] := by
    intro hnil
    rw [settleVickrey_none_iff.mpr hnil] at h
    cases h
  obtain ⟨highest, rest, hfirst⟩ := FirstMax.exists paid hbids
  have hbids' : a'.bids ≠ [] := by
    intro hnil
    have hmem := hsub.subset hfirst.mem
    rw [hnil] at hmem
    cases hmem
  obtain ⟨highest', rest', hfirst'⟩ := FirstMax.exists paid hbids'
  obtain rfl := Option.some.inj ((settleVickrey_eq hfirst settledAt).symm.trans h)
  obtain ⟨hhighest, hrest⟩ := hfirst.largest_mono hfirst' hsub
  refine ⟨_, settleVickrey_eq hfirst' settledAt', ?_⟩
  rw [hreserve]
  exact outcome_raises hhighest hrest

/-- An auction that only takes more bids, and is settled at what they say. -/
def Progress (a : Auction) (name : Bytes) (s : State) : Prop :=
  ∃ a', s.auction name = some a' ∧ a'.reservePrice = a.reservePrice ∧ a.bids <+: a'.bids ∧
    ∀ finalized, s.settlement name = some finalized → ∃ settledAt, settleVickrey a' settledAt = some finalized

theorem step_progress {t : Tx Call} (h : Progress a name s) (hok : step out self (s, w) t = .ok (s', w')) :
    Progress a name s' := by
  obtain ⟨a', ha', hreserve, hbids, hsettled⟩ := h
  obtain ⟨env, c⟩ := t
  cases step_change hok with
  | quiet _ hauction hsettlement _ =>
      rw [← hauction] at ha'
      rw [← hsettlement] at hsettled
      exact ⟨a', ha', hreserve, hbids, hsettled⟩
  | noBids _ _ hauction hsettlement _ =>
      rw [← hauction] at ha'
      rw [← hsettlement] at hsettled
      exact ⟨a', ha', hreserve, hbids, hsettled⟩
  | @create other _ _ _ _ _ hnone hauction hsettlement _ =>
      have hne : name ≠ other := by
        rintro rfl
        cases ha'.symm.trans hnone
      rw [← hsettlement] at hsettled
      exact ⟨a', by rw [hauction, Store.set_ne _ _ hne]; exact ha', hreserve, hbids, hsettled⟩
  | @bid other bidder amount nowUnix b hb hopen _ _ _ hauction hsettlement =>
      by_cases hname : name = other
      · subst hname
        obtain rfl := Option.some.inj (ha'.symm.trans hb)
        refine ⟨{ a' with bids := a'.bids ++ [⟨bidder, amount, nowUnix⟩] }, by rw [hauction, Store.set_self], hreserve,
          hbids.trans (List.prefix_append _ _), ?_⟩
        intro finalized hfinal
        rw [hsettlement, hopen] at hfinal
        cases hfinal
      · rw [← hsettlement] at hsettled
        exact ⟨a', by rw [hauction, Store.set_ne _ _ hname]; exact ha', hreserve, hbids, hsettled⟩
  | @settle other nowUnix b f hb _ _ hfinal hauction hsettlement _ =>
      refine ⟨a', by rw [hauction]; exact ha', hreserve, hbids, ?_⟩
      intro finalized hrecorded
      rw [hsettlement] at hrecorded
      rcases Store.set_eq_some.mp hrecorded with ⟨rfl, rfl⟩ | ⟨_, hrecorded⟩
      · obtain rfl := Option.some.inj (ha'.symm.trans hb)
        exact ⟨nowUnix, hfinal⟩
      · exact hsettled finalized hrecorded

/-- **The price never falls.** Whatever happens from a state on in which an auction is open, if it is settled at last, then
    its winning bid and its clearing price are at least those of settling it at once, and a name that would have been sold
    is. -/
theorem price_never_falls (out : Outside ω) (self : Address) (sw : State × ω) (ts : List (Tx Call)) {f : Settlement}
    (ha : sw.1.auction name = some a) (hopen : sw.1.settlement name = none) (hnow : settleVickrey a settledAt = some f)
    (hsettled : (run (step out self) sw ts).1.settlement name = some finalized) : f.Raises finalized := by
  have hpreserves : Preserves (step out self) fun sw => Progress a name sw.1 := fun _ _ _ h hok => step_progress h hok
  have hfirst : Progress a name sw.1 := by
    refine ⟨a, ha, rfl, List.prefix_refl _, ?_⟩
    intro finalized hfinal
    cases hopen.symm.trans hfinal
  obtain ⟨a', _, hreserve, hbids, hfinal⟩ := hpreserves.run ts hfirst
  obtain ⟨settledAt', hlast⟩ := hfinal finalized hsettled
  obtain ⟨f', hf', hraises⟩ := settleVickrey_raises hreserve hbids.sublist.subperm hnow
  obtain rfl := Option.some.inj (hf'.symm.trans hlast)
  exact hraises

namespace PlainLedger

open Cast

/-- Alice has bid 70, and nobody else. -/
def aloneAt : State × (Address → Address → Nat) := run (step outside house) (State.empty, purses) (auctionRun.take 3)

/-- The auction she has bid in. -/
def aliceAlone : Auction := ⟨aliceXlm, 10, 100, 200, [⟨alice, 70, 110⟩], usdc, admin⟩

/-- Bob's bid of 50 raises the price from the reserve. -/
theorem bob_raises : (⟨some alice, 10, 70, 300, true⟩ : Settlement).Raises ⟨some alice, 50, 70, 300, true⟩ := by
  have ha : aloneAt.1.auction aliceXlm = some aliceAlone := by decide +kernel
  have hopen : aloneAt.1.settlement aliceXlm = none := by decide +kernel
  have hnow : settleVickrey aliceAlone 300 = some ⟨some alice, 10, 70, 300, true⟩ := by decide +kernel
  have hsettled : (run (step outside house) aloneAt (auctionRun.drop 3)).1.settlement aliceXlm =
      some ⟨some alice, 50, 70, 300, true⟩ := by decide +kernel
  exact price_never_falls outside house aloneAt (auctionRun.drop 3) ha hopen hnow hsettled

end PlainLedger

end XlmNs.Auctions
