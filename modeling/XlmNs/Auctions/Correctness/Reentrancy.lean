import XlmNs.Auctions.Reentrancy
import XlmNs.Auctions.Steps

/-!
# `Auctions.Correctness.Reentrancy` — what tokens that call back can do to an auction

While `place_bid` waits for its transfer, the lock keeps other bids out, so the auction it writes back is the one on
record: bids are never lost. `settle` records before it pays, so nothing is paid out twice. But `settle` does not look
at the lock: a transfer may settle the very auction that is being bid on, and the bid is then appended after the
settlement. `reentrancy_safe_iff`: that is all that can go wrong. No bid follows a settlement iff no token settles, while
a bid is being paid with it, the auction of that bid (`Spares`), at any depth.

## Contents
- `Made`, `enter_made`: what a committed invocation did.
- `Between`: what holds between the start and the end of an invocation, or of a call out.
- `Careful`: the same, with bids that are paid by sparing tokens.
- `spares_suffices`: where no bid follows a settlement, every token spared the auctions.
- `reentrancy_safe_iff`: whole runs, and one in which a bid comes back to a settled auction.
-/

namespace XlmNs.Auctions

open Soroban

variable {ω : Type} {self : Address} {f : Tokens ω} {env : Env} {s s' : State} {w w' : Traced ω}
variable {name : Bytes} {nowUnix : UInt64}

/-! ## The properties -/

/-- The bids on an auction that completed, in order. -/
def bidsOn (name : Bytes) (events : List Event) : List Bid :=
  events.filterMap fun
    | .bid n bid => if n = name then some bid else none
    | _ => none

/-- The bids that an auction holds. -/
def bidsIn (s : State) (name : Bytes) : List Bid := ((s.auction name).map (·.bids)).getD []

/-- **No bid after the settlement** of its auction. -/
def ClosedWhenSettled (events : List Event) : Prop :=
  events.Pairwise fun e e' => ∀ name finalized bid, e = .settled name finalized → e' ≠ .bid name bid

/-- `place_bid` is running. -/
def Locked (s : State) : Prop := s.reentrancyLock.getD false = true

/-- How often an auction was paid out. -/
def timesPaid (name : Bytes) (events : List Event) : Nat := events.count (.paidOut name)

/-- **Nothing is corrupted**: every auction holds the bids that completed, none was paid out twice, and the lock is
    clear. -/
structure Intact (sw : State × Traced ω) : Prop where
  kept     : ∀ name, bidsIn sw.1 name = bidsOn name sw.2.events
  paidOnce : ∀ name, timesPaid name sw.2.events ≤ 1
  unlocked : ¬ Locked sw.1

/-- `place_bid` gets as far as its transfer: no bid is being placed, and the caller, the amount, the auction, which is not
    settled, and the time pass its checks. -/
structure ReachesTransfer (env : Env) (s : State) (name : Bytes) (bidder : Address) (amount nowUnix : UInt64)
    (auction : Auction) : Prop where
  unlocked  : ¬ Locked s
  signed    : env.Authorises bidder
  nonzero   : amount ≠ 0
  found     : s.auction name = some auction
  unsettled : s.settlement name = none
  window    : isTimeWindowOpen nowUnix auction.startsAt auction.endsAt

/-- The call out `k`, made from `sw`, returns with the auction settled. -/
def ReturnsSettled (f : Tokens ω) (k : Transfer) (sw : State × Traced ω) (name : Bytes) : Prop :=
  ∃ sw', f k sw = some sw' ∧ sw'.1.settlement name ≠ none

/-- The token that a bid is paid with does not use the transfer to settle the open auction of the bid. -/
def Spares (self : Address) (f : Tokens ω) (sw : State × Traced ω) (t : Tx Call) : Prop :=
  match t.call with
  | .placeBid name bidder amount nowUnix => ∀ auction, ReachesTransfer t.env sw.1 name bidder amount nowUnix auction →
      ¬ ReturnsSettled f ⟨t.env.callFrom self, auction.asset, bidder, self, amount⟩
        ({ sw.1 with reentrancyLock := some true }, sw.2) name
  | _ => True

/-! ## What a committed invocation did -/

/-- **What a committed invocation did**, its calls out left open. -/
inductive Made (self : Address) (f : Tokens ω) (env : Env) (s : State) (w : Traced ω) :
    State → Traced ω → Call → Prop
  | quiet {s' : State} {c : Call} (hc : c.isAdministration = true) (hauction : s'.auction = s.auction)
      (hsettlement : s'.settlement = s.settlement) (hlock : s'.reentrancyLock = s.reentrancyLock) :
      Made self f env s w s' w c
  | create {s' : State} {name : Bytes} {asset treasury : Address} {reservePrice startsAt endsAt : UInt64}
      (hnone : s.auction name = none)
      (hauction : s'.auction = s.auction.set name
        { name, reservePrice, startsAt, endsAt, bids := [], asset, treasury })
      (hsettlement : s'.settlement = s.settlement) (hlock : s'.reentrancyLock = s.reentrancyLock) :
      Made self f env s w s' w (.createAuction name asset treasury reservePrice startsAt endsAt)
  | bid {s₁ : State} {w₁ : Traced ω} {name : Bytes} {bidder : Address} {amount nowUnix : UInt64} {auction : Auction}
      (hreaches : ReachesTransfer env s name bidder amount nowUnix auction)
      (hpaid : f ⟨env.callFrom self, auction.asset, bidder, self, amount⟩
        ({ s with reentrancyLock := some true }, w) = some (s₁, w₁)) :
      Made self f env s w
        { putAuction s₁ name { auction with bids := auction.bids ++ [⟨bidder, amount, nowUnix⟩] } with
          reentrancyLock := some false }
        (w₁.note (.bid name ⟨bidder, amount, nowUnix⟩)) (.placeBid name bidder amount nowUnix)
  | noBids {name : Bytes} {nowUnix : UInt64} : Made self f env s w s w (.settle name nowUnix)
  | settle {s₁ : State} {w₁ : Traced ω} {name : Bytes} {nowUnix : UInt64} {auction : Auction} {finalized : Settlement}
      (hopen : s.settlement name = none)
      (hpaid : payBids f.outside self env auction finalized auction.bids false
        ({ s with settlement := s.settlement.set name finalized }, w.note (.settled name finalized)) = .ok (s₁, w₁)) :
      Made self f env s w s₁ (w₁.note (.paidOut name)) (.settle name nowUnix)

theorem not_locked_iff : ¬ Locked s ↔ s.reentrancyLock.getD false = false := by
  unfold Locked
  rw [Bool.not_eq_true]

/-- **When a bid is accepted, and what it does.** -/
theorem CalledBack.placeBid_eq_ok {bidder : Address} {amount : UInt64} :
    CalledBack.placeBid f self env s w name bidder amount nowUnix = .ok (s', w') ↔
      ∃ auction s₁ w₁, ReachesTransfer env s name bidder amount nowUnix auction ∧
        f ⟨env.callFrom self, auction.asset, bidder, self, amount⟩ ({ s with reentrancyLock := some true }, w)
          = some (s₁, w₁) ∧
        s' = { putAuction s₁ name { auction with bids := auction.bids ++ [⟨bidder, amount, nowUnix⟩] } with
          reentrancyLock := some false } ∧
        w' = w₁.note (.bid name ⟨bidder, amount, nowUnix⟩) := by
  simp only [CalledBack.placeBid, withReentrancyLock, bind_eq_ok, requireAuth_eq_ok, require_eq_ok, getAuction,
    okOr_eq_ok, requireWindowOpen_eq_ok, invoke_eq_ok, pure_eq_ok, Prod.mk.injEq, exists_const]
  constructor
  · rintro ⟨hlock, ⟨_, _⟩, ⟨hauth, hamount, auction, hauction, hopen, hwindow, ⟨s₁, w₁⟩, hpaid, rfl, rfl⟩, rfl, rfl⟩
    exact ⟨auction, s₁, w₁, ⟨not_locked_iff.mpr hlock, hauth, hamount, hauction, hopen, hwindow⟩, hpaid, rfl, rfl⟩
  · rintro ⟨auction, s₁, w₁, ⟨hlock, hauth, hamount, hauction, hopen, hwindow⟩, hpaid, rfl, rfl⟩
    exact ⟨not_locked_iff.mp hlock, _, ⟨hauth, hamount, auction, hauction, hopen, hwindow, (s₁, w₁), hpaid, rfl⟩, rfl, rfl⟩

theorem placeBid_made {bidder : Address} {amount : UInt64}
    (h : CalledBack.placeBid f self env s w name bidder amount nowUnix = .ok (s', w')) :
    Made self f env s w s' w' (.placeBid name bidder amount nowUnix) := by
  obtain ⟨auction, s₁, w₁, hreaches, hpaid, rfl, rfl⟩ := CalledBack.placeBid_eq_ok.mp h
  exact .bid hreaches hpaid

/-- **When a settlement is accepted, and what it does.** -/
theorem enter_settle_eq_ok :
    enter self f (s, w) ⟨env, .settle name nowUnix⟩ = .ok (s', w') ↔
      ∃ auction, s.auction name = some auction ∧ s.settlement name = none ∧ auction.endsAt ≤ nowUnix ∧
        ((settleVickrey auction nowUnix = none ∧ s' = s ∧ w' = w) ∨
          ∃ finalized s₁ w₁, settleVickrey auction nowUnix = some finalized ∧
            payBids f.outside self env auction finalized auction.bids false
              ({ s with settlement := s.settlement.set name finalized }, w.note (.settled name finalized)) = .ok (s₁, w₁) ∧
            s' = s₁ ∧ w' = w₁.note (.paidOut name)) := by
  simp only [enter, CalledBack.settle, bind_eq_ok, pure_eq_ok, getAuction, okOr_eq_ok, require_eq_ok, exists_const]
  constructor
  · rintro ⟨⟨_, r⟩, ⟨auction, hauction, hopen, hended, h⟩, rfl⟩
    refine ⟨auction, hauction, hopen, hended, ?_⟩
    cases hfinal : settleVickrey auction nowUnix with
    | none =>
        rw [hfinal] at h
        simp only [pure_eq_ok, Prod.mk.injEq] at h
        obtain ⟨⟨rfl, rfl⟩, _⟩ := h
        exact Or.inl ⟨rfl, rfl, rfl⟩
    | some finalized =>
        rw [hfinal] at h
        simp only [bind_eq_ok, pure_eq_ok, Prod.mk.injEq] at h
        obtain ⟨⟨s₁, w₁⟩, hpaid, ⟨rfl, rfl⟩, _⟩ := h
        exact Or.inr ⟨finalized, s₁, w₁, rfl, hpaid, rfl, rfl⟩
  · rintro ⟨auction, hauction, hopen, hended, ⟨hfinal, rfl, rfl⟩ | ⟨finalized, s₁, w₁, hfinal, hpaid, rfl, rfl⟩⟩
    · exact ⟨((s', w'), none), ⟨auction, hauction, hopen, hended, by rw [hfinal]; rfl⟩, rfl⟩
    · refine ⟨((s', w₁.note (.paidOut name)), some finalized), ⟨auction, hauction, hopen, hended, ?_⟩, rfl⟩
      rw [hfinal]
      simp only [hpaid, bind_eq_ok, pure_eq_ok]
      exact ⟨(s', w₁), rfl, rfl⟩

theorem settle_made (h : enter self f (s, w) ⟨env, .settle name nowUnix⟩ = .ok (s', w')) :
    Made self f env s w s' w' (.settle name nowUnix) := by
  obtain ⟨auction, _, hopen, _, ⟨_, rfl, rfl⟩ | ⟨finalized, s₁, w₁, _, hpaid, rfl, rfl⟩⟩ := enter_settle_eq_ok.mp h
  · exact .noBids
  · exact .settle hopen hpaid

/-- A committed call was made in one of the ways the contract allows. -/
theorem enter_made {t : Tx Call} (h : enter self f (s, w) t = .ok (s', w')) :
    Made self f t.env s w s' w' t.call := by
  obtain ⟨env, c⟩ := t
  cases c with
  | initializeContract admin =>
      simp only [enter, bind_eq_ok, pure_eq_ok, Prod.mk.injEq] at h
      obtain ⟨_, h, rfl, rfl⟩ := h
      obtain rfl := initializeContract_ok h
      exact .quiet rfl rfl rfl rfl
  | upgrade data =>
      simp only [enter, bind_eq_ok, pure_eq_ok, Prod.mk.injEq] at h
      obtain ⟨_, h, rfl, rfl⟩ := h
      obtain rfl := upgrade_ok h
      exact .quiet rfl rfl rfl rfl
  | createAuction name asset treasury reservePrice startsAt endsAt =>
      simp only [enter, bind_eq_ok, pure_eq_ok, Prod.mk.injEq] at h
      obtain ⟨_, h, rfl, rfl⟩ := h
      obtain ⟨_, _, hnone, rfl⟩ := createAuction_eq_ok.mp h
      exact .create hnone rfl rfl rfl
  | placeBid name bidder amount nowUnix => exact placeBid_made h
  | settle name nowUnix => exact settle_made h

/-! ## The history -/

section History

variable {n : Bytes} {events : List Event} {bid : Bid} {finalized : Settlement}

theorem bidsOn_append (n : Bytes) (events : List Event) (e : Event) :
    bidsOn n (events ++ [e]) = bidsOn n events ++ bidsOn n [e] := List.filterMap_append

theorem bidsOn_bid_self : bidsOn n (events ++ [.bid n bid]) = bidsOn n events ++ [bid] := by
  rw [bidsOn_append]
  simp [bidsOn]

theorem bidsOn_bid_ne (h : n ≠ name) : bidsOn n (events ++ [.bid name bid]) = bidsOn n events := by
  rw [bidsOn_append]
  simp [bidsOn, h.symm]

theorem bidsOn_settled : bidsOn n (events ++ [.settled name finalized]) = bidsOn n events := by
  rw [bidsOn_append]
  exact List.append_nil _

theorem bidsOn_paidOut : bidsOn n (events ++ [.paidOut name]) = bidsOn n events := by
  rw [bidsOn_append]
  exact List.append_nil _

theorem timesPaid_bid : timesPaid n (events ++ [.bid name bid]) = timesPaid n events := by
  simp [timesPaid, List.count_append]

theorem timesPaid_settled : timesPaid n (events ++ [.settled name finalized]) = timesPaid n events := by
  simp [timesPaid, List.count_append]

theorem timesPaid_paidOut_self : timesPaid n (events ++ [.paidOut n]) = timesPaid n events + 1 := by
  simp [timesPaid, List.count_append]

theorem timesPaid_paidOut_ne (h : n ≠ name) : timesPaid n (events ++ [.paidOut name]) = timesPaid n events := by
  simp [timesPaid, List.count_append, h.symm]

theorem settled_mem_bid : .settled n finalized ∈ events ++ [.bid name bid] ↔ .settled n finalized ∈ events := by simp

theorem settled_mem_paidOut : .settled n finalized ∈ events ++ [.paidOut name] ↔ .settled n finalized ∈ events := by simp

/-- Another event closes nothing anew, unless it is a bid on a settled auction. -/
theorem closedWhenSettled_append {e : Event} :
    ClosedWhenSettled (events ++ [e]) ↔
      ClosedWhenSettled events ∧ ∀ name bid, e = .bid name bid → ∀ finalized, .settled name finalized ∉ events := by
  unfold ClosedWhenSettled
  rw [List.pairwise_append]
  constructor
  · rintro ⟨h, _, hlast⟩
    exact ⟨h, fun name bid he finalized hmem => hlast _ hmem e (List.mem_singleton_self e) name finalized bid rfl he⟩
  · rintro ⟨h, hlast⟩
    refine ⟨h, List.pairwise_singleton _ _, ?_⟩
    rintro _ hmem e' he' name finalized bid rfl rfl
    obtain rfl := List.mem_singleton.mp he'
    exact hlast name bid rfl finalized hmem

/-- What comes later reopens nothing. -/
theorem ClosedWhenSettled.of_prefix {events' : List Event} (h : ClosedWhenSettled events') (hle : events <+: events') :
    ClosedWhenSettled events := List.Pairwise.sublist hle.sublist h

end History

/-! ## Between two states -/

/-- The contract's storage is what the history says. -/
structure Sound (sw : State × Traced ω) : Prop where
  bids        : ∀ name, bidsIn sw.1 name = bidsOn name sw.2.events
  settlements : ∀ name, sw.1.settlement name ≠ none ↔ ∃ finalized, .settled name finalized ∈ sw.2.events
  paid        : ∀ name, timesPaid name sw.2.events ≤ 1
  unpaid      : ∀ name, sw.1.settlement name = none → timesPaid name sw.2.events = 0

/-- **What holds between two states** that a call out, or an invocation, lies between. While `place_bid` runs, no
    auction changes; a settlement stays, and a settled auction is paid out by the `settle` that is running, if at
    all. -/
structure Between (sw sw' : State × Traced ω) : Prop where
  history  : sw.2.events <+: sw'.2.events
  lock     : Locked sw'.1 ↔ Locked sw.1
  auctions : Locked sw.1 → ∀ name auction, sw.1.auction name = some auction → sw'.1.auction name = some auction
  settled  : ∀ name, sw.1.settlement name ≠ none → sw'.1.settlement name ≠ none
  paid     : ∀ name, sw.1.settlement name ≠ none → timesPaid name sw'.2.events = timesPaid name sw.2.events
  sound    : Sound sw → Sound sw'

theorem Between.refl (sw : State × Traced ω) : Between sw sw :=
  ⟨List.prefix_rfl, Iff.rfl, fun _ _ _ h => h, fun _ h => h, fun _ _ => rfl, id⟩

/-- What may happen in two stretches. -/
theorem Between.trans {sw sw₁ sw₂ : State × Traced ω} (h : Between sw sw₁) (h' : Between sw₁ sw₂) :
    Between sw sw₂ := by
  constructor
  · exact h.history.trans h'.history
  · exact h'.lock.trans h.lock
  · intro hlocked name auction hauction
    exact h'.auctions (h.lock.mpr hlocked) name auction (h.auctions hlocked name auction hauction)
  · intro name hsettled
    exact h'.settled name (h.settled name hsettled)
  · intro name hsettled
    exact (h'.paid name (h.settled name hsettled)).trans (h.paid name hsettled)
  · exact h'.sound ∘ h.sound

/-- What other contracts do on their own. -/
theorem Between.of_outside {sw sw' : State × Traced ω} (h : OutsideChange sw sw') : Between sw sw' := by
  obtain ⟨s, w⟩ := sw
  obtain ⟨s', w'⟩ := sw'
  obtain ⟨rfl, hevents⟩ := h
  dsimp only at hevents
  refine ⟨?_, Iff.rfl, fun _ _ _ ha => ha, fun _ hs => hs, fun _ _ => ?_, ?_⟩
  · rw [hevents]
  · rw [hevents]
  · rintro ⟨hbids, hsettlements, hpaid, hunpaid⟩
    constructor <;> dsimp only <;> rw [hevents] <;> assumption

section Payouts

variable {R : State × Traced ω → State × Traced ω → Prop} {sw sw' : State × Traced ω}

/-- What every transfer keeps, a list of payments keeps. -/
theorem transferAll_rule (hrefl : ∀ sw, R sw sw) (htrans : ∀ {sw sw₁ sw₂}, R sw sw₁ → R sw₁ sw₂ → R sw sw₂)
    (hf : ∀ k u u', f k u = some u' → R u u') {asset src : Address} {payments : List Payment}
    (h : transferAll f.outside.transfer env asset src payments sw = some sw') : R sw sw' := by
  induction payments generalizing sw with
  | nil =>
      obtain rfl := Option.some.inj h
      exact hrefl _
  | cons p payments ih =>
      rw [transferAll_cons] at h
      obtain ⟨sw₁, hpaid, hrest⟩ := h
      exact htrans (hf _ _ _ hpaid) (ih hrest)

/-- So does the payout loop. -/
theorem payBids_rule (hrefl : ∀ sw, R sw sw) (htrans : ∀ {sw sw₁ sw₂}, R sw sw₁ → R sw₁ sw₂ → R sw sw₂)
    (hf : ∀ k u u', f k u = some u' → R u u') {auction : Auction} {finalized : Settlement} {bids : List Bid} {paid : Bool}
    (h : payBids f.outside self env auction finalized bids paid sw = .ok sw') : R sw sw' :=
  transferAll_rule hrefl htrans hf (payBids_eq_ok.mp h)

end Payouts

/-! ## One invocation -/

theorem bidsIn_eq {auction : Auction} (h : s.auction name = some auction) : bidsIn s name = auction.bids := by
  unfold bidsIn
  rw [h]
  rfl

theorem bidsIn_none (h : s.auction name = none) : bidsIn s name = [] := by
  unfold bidsIn
  rw [h]
  rfl

theorem bidsIn_set_ne {auction : Auction} {n : Bytes} (hauction : s'.auction = s.auction.set name auction)
    (h : n ≠ name) : bidsIn s' n = bidsIn s n := by
  unfold bidsIn
  rw [hauction, Store.set_ne _ _ h]

theorem Sound.of_eq (h : Sound (s, w)) (hbids : ∀ name, bidsIn s' name = bidsIn s name)
    (hsettlement : s'.settlement = s.settlement) : Sound (s', w) := by
  constructor
  · intro name
    rw [hbids]
    exact h.bids name
  · dsimp only
    rw [hsettlement]
    exact h.settlements
  · exact h.paid
  · dsimp only
    rw [hsettlement]
    exact h.unpaid

/-- Administration, and a new auction. -/
theorem Between.of_storage (hlock : s'.reentrancyLock = s.reentrancyLock) (hsettlement : s'.settlement = s.settlement)
    (hauction : ∀ name auction, s.auction name = some auction → s'.auction name = some auction)
    (hbids : ∀ name, bidsIn s' name = bidsIn s name) : Between (s, w) (s', w) := by
  constructor
  · exact List.prefix_rfl
  · unfold Locked
    rw [hlock]
  · exact fun _ => hauction
  · dsimp only
    rw [hsettlement]
    exact fun _ => id
  · exact fun _ _ => rfl
  · exact fun hsound => hsound.of_eq hbids hsettlement

/-- **A bid**: the auction written back is the one the transfer left on record. -/
theorem between_bid {s₁ : State} {w₁ : Traced ω} {auction : Auction} {bid : Bid} (hlock : ¬ Locked s)
    (hauction : s.auction name = some auction)
    (hpaid : Between ({ s with reentrancyLock := some true }, w) (s₁, w₁)) :
    Between (s, w) ({ putAuction s₁ name { auction with bids := auction.bids ++ [bid] } with
      reentrancyLock := some false }, w₁.note (.bid name bid)) := by
  have hrecord : s₁.auction name = some auction := hpaid.auctions rfl name auction hauction
  constructor
  · exact hpaid.history.trans (List.prefix_append _ _)
  · exact iff_of_false (by simp [Locked]) hlock
  · exact fun h => absurd h hlock
  · exact hpaid.settled
  · intro n hsettled
    exact timesPaid_bid.trans (hpaid.paid n hsettled)
  · intro hsound
    obtain ⟨hbids, hsettlements, honce, hunpaid⟩ := hpaid.sound (hsound.of_eq (fun _ => rfl) rfl)
    constructor
    · intro n
      by_cases hn : n = name
      · subst hn
        have hafter : bidsOn n w₁.events = auction.bids := (hbids n).symm.trans (bidsIn_eq hrecord)
        exact (bidsIn_eq (Store.set_self _ _ _)).trans (by rw [Traced.note, bidsOn_bid_self, hafter])
      · exact (bidsIn_set_ne rfl hn).trans ((hbids n).trans (bidsOn_bid_ne hn).symm)
    · exact fun n => (hsettlements n).trans (exists_congr fun _ => settled_mem_bid.symm)
    · intro n
      exact le_of_eq_of_le timesPaid_bid (honce n)
    · intro n hnone
      exact timesPaid_bid.trans (hunpaid n hnone)

/-- A settlement is recorded, and not paid out yet. -/
theorem Sound.record (h : Sound (s, w)) (finalized : Settlement) :
    Sound ({ s with settlement := s.settlement.set name finalized }, w.note (.settled name finalized)) := by
  constructor
  · exact fun n => (h.bids n).trans bidsOn_settled.symm
  · intro n
    show s.settlement.set name finalized n ≠ none ↔ _
    by_cases hn : n = name
    · subst hn
      rw [Store.set_self]
      exact iff_of_true (Option.some_ne_none _) ⟨finalized, by simp [Traced.note]⟩
    · rw [Store.set_ne _ _ hn, h.settlements n]
      simp [Traced.note, hn]
  · exact fun n => le_of_eq_of_le timesPaid_settled (h.paid n)
  · intro n hnone
    have hn : n ≠ name := by
      rintro rfl
      exact absurd ((Store.set_self _ _ _).symm.trans hnone) (Option.some_ne_none _)
    have hbefore : s.settlement n = none := (Store.set_ne _ _ hn).symm.trans hnone
    exact timesPaid_settled.trans (h.unpaid n hbefore)

/-- **A settlement**: it is recorded before the first payment, and keeps every other `settle` of the auction out. -/
theorem between_settle {s₁ : State} {w₁ : Traced ω} {finalized : Settlement} (hopen : s.settlement name = none)
    (hpaid : Between ({ s with settlement := s.settlement.set name finalized }, w.note (.settled name finalized))
      (s₁, w₁)) :
    Between (s, w) (s₁, w₁.note (.paidOut name)) := by
  have hother : ∀ n, s.settlement n ≠ none → n ≠ name := by
    rintro n hsettled rfl
    exact hsettled hopen
  have hsettles : ∀ n, s.settlement n ≠ none → s.settlement.set name finalized n ≠ none := by
    intro n hsettled
    rw [Store.set_ne _ _ (hother n hsettled)]
    exact hsettled
  have hname : s.settlement.set name finalized name ≠ none := by
    rw [Store.set_self]
    exact Option.some_ne_none _
  constructor
  · exact (List.prefix_append _ _).trans (hpaid.history.trans (List.prefix_append _ _))
  · exact hpaid.lock
  · exact hpaid.auctions
  · exact fun n hsettled => hpaid.settled n (hsettles n hsettled)
  · intro n hsettled
    exact (timesPaid_paidOut_ne (hother n hsettled)).trans ((hpaid.paid n (hsettles n hsettled)).trans timesPaid_settled)
  · intro hsound
    obtain ⟨hbids, hsettlements, honce, hunpaid⟩ := hpaid.sound (hsound.record finalized)
    -- nothing was paid out for this auction before, nor while its payments were made
    have hnotYet : timesPaid name w₁.events = 0 :=
      (hpaid.paid name hname).trans (timesPaid_settled.trans (hsound.unpaid name hopen))
    constructor
    · exact fun n => (hbids n).trans bidsOn_paidOut.symm
    · exact fun n => (hsettlements n).trans (exists_congr fun _ => settled_mem_paidOut.symm)
    · intro n
      by_cases hn : n = name
      · subst hn
        exact le_of_eq (timesPaid_paidOut_self.trans (congrArg (· + 1) hnotYet))
      · exact le_of_eq_of_le (timesPaid_paidOut_ne hn) (honce n)
    · intro n hnone
      have hn : n ≠ name := by
        rintro rfl
        exact hpaid.settled n hname hnone
      exact (timesPaid_paidOut_ne hn).trans (hunpaid n hnone)

/-- **What the calls out keep, the invocation keeps.** -/
theorem Made.between {c : Call} (hf : ∀ k u u', f k u = some u' → Between u u')
    (h : Made self f env s w s' w' c) : Between (s, w) (s', w') := by
  cases h with
  | quiet _ hauction hsettlement hlock =>
      refine .of_storage hlock hsettlement ?_ ?_
      · rw [hauction]
        exact fun _ _ => id
      · unfold bidsIn
        rw [hauction]
        exact fun _ => rfl
  | @create _ name _ _ _ _ _ hnone hauction hsettlement hlock =>
      refine .of_storage hlock hsettlement ?_ ?_
      · intro n a ha
        rw [hauction, Store.set_ne _ _ (by rintro rfl; cases hnone.symm.trans ha)]
        exact ha
      · intro n
        by_cases hn : n = name
        · subst hn
          rw [bidsIn_none hnone, bidsIn_eq (by rw [hauction, Store.set_self])]
        · exact bidsIn_set_ne hauction hn
  | bid hreaches hpaid => exact between_bid hreaches.unlocked hreaches.found (hf _ _ _ hpaid)
  | noBids => exact .refl _
  | settle hopen hpaid => exact between_settle hopen (payBids_rule .refl .trans hf hpaid)

/-! ## Sparing tokens -/

/-- The same, and no bid follows a settlement. -/
structure Careful (sw sw' : State × Traced ω) : Prop extends Between sw sw' where
  closed : Sound sw → ClosedWhenSettled sw.2.events → ClosedWhenSettled sw'.2.events

theorem Careful.refl (sw : State × Traced ω) : Careful sw sw := ⟨.refl sw, fun _ => id⟩

/-- Care in two stretches. -/
theorem Careful.trans {sw sw₁ sw₂ : State × Traced ω} (h : Careful sw sw₁) (h' : Careful sw₁ sw₂) : Careful sw sw₂ :=
  ⟨h.toBetween.trans h'.toBetween, fun hsound hclosed => h'.closed (h.sound hsound) (h.closed hsound hclosed)⟩

theorem Careful.of_outside {sw sw' : State × Traced ω} (h : OutsideChange sw sw') : Careful sw sw' := by
  refine ⟨.of_outside h, ?_⟩
  rw [h.2]
  exact fun _ => id

/-- The lock is no part of what the history says. -/
theorem Sound.lock (h : Sound (s, w)) : Sound ({ s with reentrancyLock := some true }, w) := h.of_eq (fun _ => rfl) rfl

theorem Made.careful {c : Call} (hf : ∀ k u u', f k u = some u' → Careful u u') (hspares : Spares self f (s, w) ⟨env, c⟩)
    (h : Made self f env s w s' w' c) : Careful (s, w) (s', w') := by
  refine ⟨h.between fun k u u' hret => (hf k u u' hret).toBetween, ?_⟩
  intro hsound hclosed
  cases h with
  | quiet => exact hclosed
  | create => exact hclosed
  | noBids => exact hclosed
  | @bid s₁ w₁ name bidder amount nowUnix auction hreaches hpaid =>
      have hpaid' := hf _ _ _ hpaid
      refine closedWhenSettled_append.mpr ⟨hpaid'.closed hsound.lock hclosed, ?_⟩
      rintro n bid hbid finalized hmem
      obtain ⟨rfl, _⟩ := Event.bid.inj hbid
      -- the transfer was asked for while the auction was open, and did not settle it
      have hsettled := ((hpaid'.sound hsound.lock).settlements name).mpr ⟨finalized, hmem⟩
      exact hspares auction hreaches ⟨_, hpaid, hsettled⟩
  | @settle s₁ w₁ name nowUnix auction finalized hopen hpaid =>
      have hpaid' := payBids_rule .refl .trans hf hpaid
      have hstart : ClosedWhenSettled (w.note (.settled name finalized)).events :=
        closedWhenSettled_append.mpr ⟨hclosed, fun _ _ hbid => nomatch hbid⟩
      exact closedWhenSettled_append.mpr ⟨hpaid'.closed (hsound.record finalized) hstart, fun _ _ hbid => nomatch hbid⟩

/-! ## Where no bid follows a settlement -/

/-- The payout loop needs only the answers that lose nothing. -/
theorem payBids_within {auction : Auction} {finalized : Settlement} {bids : List Bid} {paid : Bool}
    {sw sw' : State × Traced ω} (hf : ∀ k u u', f k u = some u' → Between u u') (hsound : Sound sw)
    (hclosed : ClosedWhenSettled sw'.2.events)
    (h : payBids f.outside self env auction finalized bids paid sw = .ok sw') :
    payBids (Tokens.outside (Callback.within f fun u u' => Sound u ∧ ClosedWhenSettled u'.2.events)) self env auction
      finalized bids paid sw = .ok sw' := by
  rw [payBids_eq_ok] at h ⊢
  generalize payouts auction finalized bids paid = payments at h ⊢
  induction payments generalizing sw with
  | nil => exact h
  | cons p payments ih =>
      rw [transferAll_cons] at h ⊢
      obtain ⟨sw₁, hpaid, hrest⟩ := h
      have hfirst := hf _ _ _ hpaid
      have hlater : Between sw₁ sw' := transferAll_rule .refl .trans hf hrest
      refine ⟨sw₁, ?_, ih (hfirst.sound hsound) hrest⟩
      have hclosed₁ : ClosedWhenSettled sw₁.2.events := hclosed.of_prefix hlater.history
      exact (Callback.within_eq_some (P := fun u u' => Sound u ∧ ClosedWhenSettled u'.2.events)).mpr
        ⟨hpaid, hsound, hclosed₁⟩

/-- **Where no bid follows a settlement, the token of an accepted bid has spared the auction.** -/
theorem spares_suffices :
    Suffices (enter self) (fun _ _ _ => True) (Spares self) Between Sound
      (fun sw : State × Traced ω => ClosedWhenSettled sw.2.events) := by
  rintro f ⟨s, w⟩ ⟨env, c⟩ ⟨s', w'⟩ hf _ hok hsound hclosed
  cases c with
  | initializeContract => exact ⟨trivial, hok⟩
  | upgrade => exact ⟨trivial, hok⟩
  | createAuction => exact ⟨trivial, hok⟩
  | placeBid name bidder amount nowUnix =>
      obtain ⟨auction, s₁, w₁, hreaches, hpaid, rfl, rfl⟩ := CalledBack.placeBid_eq_ok.mp hok
      obtain ⟨hbefore, hnone⟩ := closedWhenSettled_append.mp hclosed
      constructor
      · rintro auction' hreaches' ⟨⟨s₂, w₂⟩, hret, hsettled⟩
        obtain rfl := Option.some.inj (hreaches.found.symm.trans hreaches'.found)
        obtain ⟨rfl, rfl⟩ := Prod.mk.inj (Option.some.inj (hpaid.symm.trans (Callback.within_eq_some.mp hret).1))
        obtain ⟨finalized, hmem⟩ := (((hf _ _ _ hpaid).sound hsound.lock).settlements name).mp hsettled
        exact hnone name _ rfl finalized hmem
      · refine CalledBack.placeBid_eq_ok.mpr ⟨auction, s₁, w₁, hreaches, ?_, rfl, rfl⟩
        exact Callback.within_eq_some.mpr ⟨hpaid, hsound.lock, hbefore⟩
  | settle name nowUnix =>
      refine ⟨trivial, enter_settle_eq_ok.mpr ?_⟩
      obtain ⟨auction, hauction, hopen, hended, hnoBids | ⟨finalized, s₁, w₁, hfinal, hpaid, rfl, rfl⟩⟩ :=
        enter_settle_eq_ok.mp hok
      · exact ⟨auction, hauction, hopen, hended, Or.inl hnoBids⟩
      · have hbefore := (closedWhenSettled_append.mp hclosed).1
        have hneeded := payBids_within hf (hsound.record finalized) hbefore hpaid
        exact ⟨auction, hauction, hopen, hended, Or.inr ⟨finalized, _, w₁, hfinal, hneeded, rfl, rfl⟩⟩

/-! ## Whole runs -/

/-- The tokens may do what they like before they return. -/
def CallsBack (self : Address) (f : Tokens ω) : Prop := Reentrant (enter self) OutsideChange (fun _ _ _ => True) f

/-- **No token settles an auction while a bid on it is being paid**: neither in the invocation itself, nor in those that
    were made before one of its transfers returned. -/
def SparesThroughout (self : Address) : State × Traced ω → Tokens ω × Tx Call → Prop :=
  AsMade (enter self) OutsideChange (Spares self)

/-- The contract is sound before its first call. -/
theorem sound_fresh (w : ω) : Sound (fresh w) := by
  constructor
  · exact fun _ => rfl
  · exact fun _ => iff_of_false (fun h => h rfl) (fun ⟨_, hmem⟩ => nomatch hmem)
  · exact fun _ => Nat.zero_le 1
  · exact fun _ _ => rfl

theorem between_carried : Carried (enter self) OutsideChange (fun _ _ _ => True) (Between (ω := ω)) where
  refl    := .refl
  trans   := .trans
  world h := .of_outside h
  call    := fun {_ _ _ _} hf _ hok => (enter_made hok).between hf

theorem careful_carried : Carried (enter self) OutsideChange (Spares self) (Careful (ω := ω)) where
  refl    := .refl
  trans   := .trans
  world h := .of_outside h
  call    := fun {_ _ _ _} hf hspares hok => (enter_made hok).careful hf hspares

/-- **Tokens that call back**, in any run from a fresh contract: after every invocation each auction holds the bids that
    completed, none was paid out twice and the lock is clear; and no bid follows a settlement iff no token settled an
    auction while a bid on it was being paid. -/
theorem reentrancy_safe_iff (w : ω) {vs : List (Tokens ω × Tx Call)} (hvs : ∀ v ∈ vs, CallsBack self v.1) :
    Intact (run (enterWith (enter self)) (fresh w) vs) ∧
      (ClosedWhenSettled (run (enterWith (enter self)) (fresh w) vs).2.events ↔
        Along (enterWith (enter self)) (SparesThroughout self) (fresh w) vs) := by
  have hall : Along (enterWith (enter self)) (fun _ v => CallsBack self v.1 ∧ True) (fresh w) vs :=
    along_of_mem (fun v hv => ⟨hvs v hv, trivial⟩) _
  refine ⟨?_, ?_, ?_⟩
  · have hkept : Sound (run (enterWith (enter self)) (fresh w) vs) ∧
        ¬ Locked (run (enterWith (enter self)) (fresh w) vs).1 := by
      refine AsMade.run (I := fun sw => Sound sw ∧ ¬ Locked sw.1) between_carried ?_
        ⟨sound_fresh w, by simp [Locked, fresh, State.empty]⟩ (hall.imp fun _ _ h => .of_reentrant h.1 h.2)
      rintro sw sw' ⟨hsound, hunlocked⟩ hbetween
      exact ⟨hbetween.sound hsound, mt hbetween.lock.mp hunlocked⟩
    exact ⟨hkept.1.bids, hkept.1.paid, hkept.2⟩
  · intro hclosed
    exact along_asMade between_carried (fun hsound h => h.sound hsound) (fun h hgood => hgood.of_prefix h.history)
      spares_suffices (sound_fresh w) hall hclosed
  · intro hspares
    have hclosed : Sound (run (enterWith (enter self)) (fresh w) vs) ∧
        ClosedWhenSettled (run (enterWith (enter self)) (fresh w) vs).2.events := by
      refine AsMade.run (I := fun sw => Sound sw ∧ ClosedWhenSettled sw.2.events) careful_carried ?_
        ⟨sound_fresh w, List.Pairwise.nil⟩ hspares
      rintro sw sw' ⟨hsound, hclosed⟩ hcareful
      exact ⟨hcareful.sound hsound, hcareful.closed hsound hclosed⟩
    exact hclosed.2

/-! ## A bid that comes back to a settled auction -/

namespace SettledBid

open Cast

/-- The name on auction. -/
def vip : Bytes := ascii "vip.xlm"

/-- A transfer into the contract first makes a call, and ignores a failure. -/
def calling (t : Tx Call) : Tokens Unit := fun k sw =>
  if k.dst = house then
    match enter house (Tokens.plain obliging) sw t with
    | .ok sw'  => some sw'
    | .error _ => some sw
  else some sw

theorem plain_reentrant {Q : Tokens Unit → State × Traced Unit → Tx Call → Prop} :
    Reentrant (enter house) OutsideChange Q (Tokens.plain obliging) := by
  apply Reentrant.of_world
  intro k sw sw' hret
  obtain rfl := Option.some.inj hret
  exact ⟨rfl, rfl⟩

theorem calling_reentrant {Q : Tokens Unit → State × Traced Unit → Tx Call → Prop} {t : Tx Call}
    (hQ : ∀ sw sw', enter house (Tokens.plain obliging) sw t = .ok sw' → Q (Tokens.plain obliging) sw t) :
    Reentrant (enter house) OutsideChange Q (calling t) := by
  intro k sw sw' hret
  unfold calling at hret
  split at hret
  · split at hret
    · rename_i hok
      obtain rfl := Option.some.inj hret
      exact .call (.refl sw) plain_reentrant (hQ _ _ hok) hok
    · obtain rfl := Option.some.inj hret
      exact .refl sw
  · obtain rfl := Option.some.inj hret
    exact .refl sw

/-- Alice bids 500; Bob bids 300 in the last second, paying with these tokens. -/
def bobBids (f : Tokens Unit) : List (Tokens Unit × Tx Call) :=
  [(Tokens.plain obliging, ⟨⟨5, [admin], none⟩, .initializeContract admin⟩),
   (Tokens.plain obliging, ⟨⟨5, [admin], none⟩, .createAuction vip usdc admin 100 10 20⟩),
   (Tokens.plain obliging, ⟨⟨12, [alice], none⟩, .placeBid vip alice 500 12⟩),
   (f, ⟨⟨20, [bob], none⟩, .placeBid vip bob 300 20⟩)]

/-- Anybody settles at the end. -/
def settleCall : Tx Call := ⟨⟨20, [], none⟩, .settle vip 20⟩

/-- Bob bids once more. -/
def bidAgain : Tx Call := ⟨⟨20, [bob], none⟩, .placeBid vip bob 1 20⟩

theorem bobBids_callBack (t : Tx Call) : ∀ v ∈ bobBids (calling t), CallsBack house v.1 := by
  intro v hv
  simp only [bobBids, List.mem_cons, List.not_mem_nil, or_false] at hv
  rcases hv with rfl | rfl | rfl | rfl
  · exact plain_reentrant
  · exact plain_reentrant
  · exact plain_reentrant
  · exact calling_reentrant fun _ _ _ => trivial

/-- Tokens that do not call back settle nothing. -/
theorem plain_spares (sw : State × Traced Unit) (t : Tx Call) : Spares house (Tokens.plain obliging) sw t := by
  unfold Spares
  split
  · rintro auction hreaches ⟨sw', hret, hsettled⟩
    obtain rfl := Option.some.inj hret
    exact hsettled hreaches.unsettled
  · trivial

/-- While a bid is being placed, another one is turned away. -/
theorem bidAgain_rejected {k : Transfer} {sw sw' : State × Traced Unit} (h : calling bidAgain k sw = some sw')
    (hlock : Locked sw.1) : sw' = sw := by
  obtain ⟨s, w⟩ := sw
  unfold calling at h
  split at h
  · split at h
    · rename_i sw₁ hok
      obtain ⟨s₁, w₁⟩ := sw₁
      have hmade := enter_made hok
      cases hmade with
      | quiet hc => cases hc
      | bid hreaches _ => exact absurd hlock hreaches.unlocked
    · exact (Option.some.inj h).symm
  · exact (Option.some.inj h).symm

/-- Nor is the auction settled while such tokens are paid in. -/
theorem bidAgain_spares (sw : State × Traced Unit) (t : Tx Call) : Spares house (calling bidAgain) sw t := by
  unfold Spares
  split
  · rintro auction hreaches ⟨sw', hret, hsettled⟩
    have hsame := bidAgain_rejected hret rfl
    rw [hsame] at hsettled
    exact hsettled hreaches.unsettled
  · trivial

theorem bobBids_spare :
    Along (enterWith (enter house)) (SparesThroughout house) (fresh ()) (bobBids (calling bidAgain)) := by
  refine ⟨?_, ?_, ?_, ?_, trivial⟩
  · exact .of_reentrant plain_reentrant (plain_spares _ _)
  · exact .of_reentrant plain_reentrant (plain_spares _ _)
  · exact .of_reentrant plain_reentrant (plain_spares _ _)
  · exact .of_reentrant (calling_reentrant fun sw _ _ => plain_spares sw _) (bidAgain_spares _ _)

/-- Tokens that try to bid again change nothing. -/
theorem bidAgain_safe :
    Intact (run (enterWith (enter house)) (fresh ()) (bobBids (calling bidAgain))) ∧
      ClosedWhenSettled (run (enterWith (enter house)) (fresh ()) (bobBids (calling bidAgain))).2.events := by
  obtain ⟨hintact, hclosed⟩ := reentrancy_safe_iff () (bobBids_callBack bidAgain)
  exact ⟨hintact, hclosed.mpr bobBids_spare⟩

/-- **A bid is appended to a settled auction on the code**: Bob's tokens settle the auction while he bids. -/
theorem bid_after_settlement :
    (∀ v ∈ bobBids (calling settleCall), CallsBack house v.1) ∧
      ¬ ClosedWhenSettled (run (enterWith (enter house)) (fresh ()) (bobBids (calling settleCall))).2.events := by
  refine ⟨bobBids_callBack settleCall, fun hclosed => ?_⟩
  have hevents : (run (enterWith (enter house)) (fresh ()) (bobBids (calling settleCall))).2.events
      = [.bid vip ⟨alice, 500, 12⟩, .settled vip ⟨some alice, 100, 500, 20, true⟩, .paidOut vip,
          .bid vip ⟨bob, 300, 20⟩] := by decide +kernel
  rw [hevents] at hclosed
  have hsettled := (List.pairwise_cons.mp (List.pairwise_cons.mp hclosed).2).1
  exact hsettled (.bid vip ⟨bob, 300, 20⟩) (by decide) _ _ _ rfl rfl

end SettledBid

end XlmNs.Auctions
