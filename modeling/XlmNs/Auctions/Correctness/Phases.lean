import XlmNs.Auctions.Steps
import XlmNs.Soroban.Machine

/-!
# `Auctions.Correctness.Phases` — bidding and settlement against the ledger clock

By the ledger clock an auction takes bids from `starts_at` to `ends_at`, both included, and is settled after that
(`PhaseSafe`). The contract compares the window with the `now_unix` it is given, and lets a settlement through at
`ends_at` itself. `phases_iff`: a run keeps the phases exactly when no call that everything else lets through names a
time in a phase the ledger clock is not in (`ClockPhase`).

## Contents
- `Change.keepsPhases_iff`: one committed invocation, exactly.
- `phases_iff`: whole runs.
- `recorded_bids_in_window`: what the phases mean for the bids on record.
- a run in which the only bidder closes the auction early.
-/

namespace XlmNs.Auctions

open Soroban

variable {ω : Type} {out : Outside ω} {self : Address} {env : Env} {s s' : State} {w w' : ω}
variable {name : Bytes} {a : Auction}

/-! ## The phases -/

/-- `s'` has other bids on `name` than the auction `a` had. -/
def RecordsBid (s' : State) (name : Bytes) (a : Auction) : Prop :=
  ∃ a', s'.auction name = some a' ∧ a'.bids ≠ a.bids

/-- `s'` has a settlement of `name`, and `s` had none. -/
def RecordsSettlement (s s' : State) (name : Bytes) : Prop :=
  s.settlement name = none ∧ ∃ finalized, s'.settlement name = some finalized

/-- What may be recorded at ledger time `now`: bids inside the window, settlements when it is over. -/
def KeepsPhases (now : UInt64) (s s' : State) : Prop :=
  ∀ name a, s.auction name = some a →
    (RecordsBid s' name a → isTimeWindowOpen now a.startsAt a.endsAt) ∧
      (RecordsSettlement s s' name → a.endsAt < now)

/-- **Phase safety of one invocation**, at its ledger time. -/
def PhaseSafe (out : Outside ω) (self : Address) (sw : State × ω) (t : Tx Call) : Prop :=
  KeepsPhases t.env.timestamp sw.1 (exec (step out self) sw t).1

/-- By its `now_unix` the call is in time for `a`, by the ledger clock it is not: a bid outside the window, a settlement
    before the window has closed. -/
def OtherPhase (now : UInt64) (a : Auction) : Call → Prop
  | .placeBid _ _ _ nowUnix =>
      isTimeWindowOpen nowUnix a.startsAt a.endsAt ∧ ¬ isTimeWindowOpen now a.startsAt a.endsAt
  | .settle _ nowUnix => a.endsAt ≤ nowUnix ∧ now ≤ a.endsAt
  | _ => False

/-- Whatever its `now_unix`, nothing else refuses the call on the open auction `a`: neither the signature, the amount, the
    lock nor the token a bid; neither a lack of bids nor a token a settlement. -/
def Admitted (out : Outside ω) (self : Address) (sw : State × ω) (t : Tx Call) (a : Auction) : Prop :=
  match t.call with
  | .placeBid name bidder amount _ =>
      sw.1.auction name = some a ∧ sw.1.settlement name = none ∧ t.env.Authorises bidder ∧ amount ≠ 0 ∧
        sw.1.reentrancyLock.getD false = false ∧
        ∃ w', out.transfer (t.env.callFrom self) a.asset bidder self amount sw.2 = some w'
  | .settle name nowUnix =>
      sw.1.auction name = some a ∧ sw.1.settlement name = none ∧
        ∃ finalized w', settleVickrey a nowUnix = some finalized ∧
          transferAll out.transfer (t.env.callFrom self) a.asset self (payouts a finalized a.bids false) sw.2 = some w'
  | _ => False

/-- No call that is otherwise admitted names a time in another phase than the ledger clock's. -/
def ClockPhase (out : Outside ω) (self : Address) (sw : State × ω) (t : Tx Call) : Prop :=
  ∀ a, Admitted out self sw t a → ¬ OtherPhase t.env.timestamp a t.call

/-! ## One step -/

theorem not_recordsBid (ha : s.auction name = some a) (h : s'.auction name = s.auction name) :
    ¬ RecordsBid s' name a := by
  rintro ⟨a', ha', hne⟩
  obtain rfl := Option.some.inj ((h.trans ha).symm.trans ha')
  exact hne rfl

theorem not_recordsSettlement (h : s'.settlement name = s.settlement name) :
    ¬ RecordsSettlement s s' name := by
  rintro ⟨hnone, _, hsome⟩
  cases (h.trans hnone).symm.trans hsome

/-- Recording nothing keeps the phases. -/
theorem keepsPhases_of_same (now : UInt64)
    (hauction : ∀ n a, s.auction n = some a → s'.auction n = some a)
    (hsettlement : s'.settlement = s.settlement) : KeepsPhases now s s' := by
  intro n a ha
  have hbid : ¬ RecordsBid s' n a := not_recordsBid ha ((hauction n a ha).trans ha.symm)
  have hsettle : ¬ RecordsSettlement s s' n := not_recordsSettlement (congrFun hsettlement n)
  exact ⟨fun h => absurd h hbid, fun h => absurd h hsettle⟩

/-- The ledger clock is in the phase that the call needs. -/
def InPhase (now : UInt64) (s : State) : Call → Prop
  | .placeBid name _ _ _ => ∀ a, s.auction name = some a → isTimeWindowOpen now a.startsAt a.endsAt
  | .settle name _ => ∀ a, s.auction name = some a → a.bids ≠ [] → a.endsAt < now
  | _ => True

/-- **One committed invocation, exactly.** -/
theorem Change.keepsPhases_iff {c : Call} (hc : Change out self env s w s' w' c) (now : UInt64) :
    KeepsPhases now s s' ↔ InPhase now s c := by
  cases hc with
  | @quiet c hadmin hauction hsettlement _ =>
      have hkeep : KeepsPhases now s s' := by
        refine keepsPhases_of_same now ?_ hsettlement
        intro n a ha
        rw [hauction]
        exact ha
      refine iff_of_true hkeep ?_
      cases c with
      | initializeContract | upgrade => trivial
      | _ => cases hadmin
  | @create name asset treasury reservePrice startsAt endsAt hnone hauction hsettlement _ =>
      refine iff_of_true (keepsPhases_of_same now ?_ hsettlement) trivial
      intro n a ha
      have hn : n ≠ name := by
        rintro rfl
        cases hnone.symm.trans ha
      rw [hauction, Store.set_ne _ _ hn]
      exact ha
  | @bid name bidder amount nowUnix a ha hopen _ _ _ hauction hsettlement =>
      have hnew : RecordsBid s' name a :=
        ⟨_, by rw [hauction]; exact Store.set_self _ _ _, by simp⟩
      have hsame : InPhase now s (.placeBid name bidder amount nowUnix) ↔ isTimeWindowOpen now a.startsAt a.endsAt :=
        Store.forall_value_iff ha
      rw [hsame]
      constructor
      · intro hkeep
        exact (hkeep name a ha).1 hnew
      · intro hopen' n a' ha'
        have hnone : ¬ RecordsSettlement s s' n := not_recordsSettlement (by rw [hsettlement])
        refine ⟨?_, fun h => absurd h hnone⟩
        intro hbid
        by_cases hn : n = name
        · subst hn
          obtain rfl := Option.some.inj (ha.symm.trans ha')
          exact hopen'
        · -- another auction has the bids it had
          exact absurd hbid (not_recordsBid ha' (by rw [hauction, Store.set_ne _ _ hn]))
  | @noBids name nowUnix a ha hfinal hauction hsettlement _ =>
      -- without bids nothing is recorded, whatever time is claimed
      have hkeep : KeepsPhases now s s' := by
        refine keepsPhases_of_same now ?_ hsettlement
        intro n a ha
        rw [hauction]
        exact ha
      have hbids : a.bids = [] := settleVickrey_none_iff.mp hfinal
      have hsame : InPhase now s (.settle name nowUnix) :=
        (Store.forall_value_iff ha).mpr (fun h => absurd hbids h)
      exact iff_of_true hkeep hsame
  | @settle name nowUnix a finalized ha hopen hended hfinal hauction hsettlement _ =>
      have hnew : RecordsSettlement s s' name :=
        ⟨hopen, finalized, by rw [hsettlement]; exact Store.set_self _ _ _⟩
      have hbids : a.bids ≠ [] := by
        intro hnil
        have hnone : settleVickrey a nowUnix = none := settleVickrey_none_iff.mpr hnil
        rw [hnone] at hfinal
        cases hfinal
      have hsame : InPhase now s (.settle name nowUnix) ↔ a.endsAt < now :=
        (Store.forall_value_iff ha).trans ⟨fun h => h hbids, fun h _ => h⟩
      rw [hsame]
      constructor
      · intro hkeep
        exact (hkeep name a ha).2 hnew
      · intro hover n a' ha'
        have hnone : ¬ RecordsBid s' n a' := not_recordsBid ha' (by rw [hauction])
        refine ⟨fun h => absurd h hnone, ?_⟩
        intro hrec
        by_cases hn : n = name
        · subst hn
          obtain rfl := Option.some.inj (ha.symm.trans ha')
          exact hover
        · -- another auction is settled or not as before
          exact absurd hrec (not_recordsSettlement (by rw [hsettlement, Store.set_ne _ _ hn]))

/-- A call that is admitted and in time by its `now_unix` is accepted. -/
theorem ok_of_otherPhase {sw : State × ω} {t : Tx Call} (hadmitted : Admitted out self sw t a)
    (hother : OtherPhase t.env.timestamp a t.call) : ∃ sw', step out self sw t = .ok sw' := by
  obtain ⟨s, w⟩ := sw
  obtain ⟨env, c⟩ := t
  cases c with
  | placeBid name bidder amount nowUnix =>
      obtain ⟨ha, hopen, hauth, hamount, hlock, w', hpaid⟩ := hadmitted
      exact ⟨_, placeBid_eq_ok.mpr ⟨hlock, hauth, hamount, a, ha, hopen, hother.1, hpaid, rfl⟩⟩
  | settle name nowUnix =>
      obtain ⟨ha, hopen, finalized, w', hfinal, hpaid⟩ := hadmitted
      have hok := settle_ok ha hopen hother.1 hfinal hpaid
      exact ⟨_, by simp only [step, hok]; rfl⟩
  | _ => exact hadmitted.elim

/-- An accepted call was admitted, so without another phase it is in its own. -/
theorem inPhase_of_ok {t : Tx Call} (hok : step out self (s, w) t = .ok (s', w'))
    (hclock : ClockPhase out self (s, w) t) : InPhase t.env.timestamp s t.call := by
  have hchange := step_change hok
  obtain ⟨env, c⟩ := t
  cases c with
  | placeBid name bidder amount nowUnix =>
      obtain ⟨hlock, hauth, hamount, a, ha, hopen, hwindow, hpaid, _⟩ := placeBid_eq_ok.mp hok
      refine (Store.forall_value_iff ha).mpr ?_
      by_contra hclosed
      exact hclock a ⟨ha, hopen, hauth, hamount, hlock, w', hpaid⟩ ⟨hwindow, hclosed⟩
  | settle name nowUnix =>
      cases hchange with
      | quiet hadmin => cases hadmin
      | noBids ha hfinal =>
          exact (Store.forall_value_iff ha).mpr fun hbids => absurd (settleVickrey_none_iff.mp hfinal) hbids
      | @settle _ _ a finalized ha hopen hended hfinal _ _ hpaid =>
          refine (Store.forall_value_iff ha).mpr fun _ => ?_
          by_contra hearly
          exact hclock a ⟨ha, hopen, finalized, w', hfinal, hpaid⟩ ⟨hended, UInt64.not_lt.mp hearly⟩
  | _ => trivial

/-- In its own phase, a call is in no other. -/
theorem clockPhase_of_inPhase {sw : State × ω} {t : Tx Call} (h : InPhase t.env.timestamp sw.1 t.call) :
    ClockPhase out self sw t := by
  obtain ⟨env, c⟩ := t
  intro a hadmitted hother
  cases c with
  | placeBid name bidder amount nowUnix => exact hother.2 (h a hadmitted.1)
  | settle name nowUnix =>
      obtain ⟨ha, _, finalized, _, hfinal, _⟩ := hadmitted
      have hbids : a.bids ≠ [] := by
        intro hnil
        cases (settleVickrey_none_iff.mpr hnil).symm.trans hfinal
      exact UInt64.not_lt.mpr hother.2 (h a ha hbids)
  | _ => exact hother

/-- **One step, exactly.** -/
theorem phaseSafe_iff (sw : State × ω) (t : Tx Call) :
    PhaseSafe out self sw t ↔ ClockPhase out self sw t := by
  rcases exec_cases (step out self) sw t with hok | ⟨⟨_, herr⟩, hsame⟩
  · have hiff : PhaseSafe out self sw t ↔ InPhase t.env.timestamp sw.1 t.call :=
      (step_change hok).keepsPhases_iff t.env.timestamp
    rw [hiff]
    exact ⟨clockPhase_of_inPhase, inPhase_of_ok hok⟩
  · unfold PhaseSafe
    rw [hsame]
    refine iff_of_true (keepsPhases_of_same _ (fun _ _ h => h) rfl) ?_
    -- a call in another phase would have been accepted
    intro a hadmitted hother
    obtain ⟨_, hok⟩ := ok_of_otherPhase hadmitted hother
    cases herr.symm.trans hok

/-! ## Whole runs -/

/-- **The phases of all auctions are kept along a run iff no call of it that everything else lets through is, by its
    `now_unix`, in another phase than by the ledger clock.** -/
theorem phases_iff (out : Outside ω) (self : Address) (w : ω) (ts : List (Tx Call)) :
    Along (step out self) (PhaseSafe out self) (State.empty, w) ts ↔
      Along (step out self) (ClockPhase out self) (State.empty, w) ts := by
  constructor
  · exact Along.imp fun sw t => (phaseSafe_iff sw t).mp
  · exact Along.imp fun sw t => (phaseSafe_iff sw t).mpr

/-- The transaction placed this bid on `name`, inside the window of `a` by the ledger clock. -/
def PlacedInWindow (name : Bytes) (a : Auction) (bid : Bid) (t : Tx Call) : Prop :=
  t.call = .placeBid name bid.bidder bid.amount bid.placedAt ∧
    isTimeWindowOpen t.env.timestamp a.startsAt a.endsAt

/-- Every bid on record was placed inside the window by one of the transactions `ts`. -/
def BidsFrom (ts : List (Tx Call)) (s : State) : Prop :=
  ∀ name a bid, s.auction name = some a → bid ∈ a.bids → ∃ t ∈ ts, PlacedInWindow name a bid t

theorem BidsFrom.mono {ts us : List (Tx Call)} (h : BidsFrom ts s) (hsub : ts ⊆ us) : BidsFrom us s := by
  intro name a bid ha hbid
  obtain ⟨t, ht, hplaced⟩ := h name a bid ha hbid
  exact ⟨t, hsub ht, hplaced⟩

/-- A phase-safe invocation accounts for the bids it records. -/
theorem BidsFrom.extend {ts : List (Tx Call)} {sw : State × ω} {t : Tx Call} (h : BidsFrom ts sw.1)
    (hsafe : PhaseSafe out self sw t) : BidsFrom (ts ++ [t]) (exec (step out self) sw t).1 := by
  have hkeep : BidsFrom (ts ++ [t]) sw.1 := h.mono (List.subset_append_left _ _)
  rcases exec_cases (step out self) sw t with hok | ⟨_, hsame⟩
  · have hphase := ((step_change hok).keepsPhases_iff t.env.timestamp).mp hsafe
    generalize exec (step out self) sw t = sw' at hok ⊢
    obtain ⟨env, c⟩ := t
    intro n a' b ha' hb
    cases step_change hok with
    | quiet _ hauction _ _ => exact hkeep n a' b (hauction ▸ ha') hb
    | noBids _ _ hauction _ _ => exact hkeep n a' b (hauction ▸ ha') hb
    | settle _ _ _ _ hauction _ _ => exact hkeep n a' b (hauction ▸ ha') hb
    | @create name _ _ _ _ _ _ hauction _ _ =>
        -- a new auction has no bids
        rw [hauction] at ha'
        rcases Store.set_eq_some.mp ha' with ⟨rfl, rfl⟩ | ⟨_, ha'⟩
        · cases hb
        · exact hkeep n a' b ha' hb
    | @bid name bidder amount nowUnix a ha _ _ _ _ hauction _ =>
        rw [hauction] at ha'
        rcases Store.set_eq_some.mp ha' with ⟨rfl, rfl⟩ | ⟨_, ha'⟩
        · rcases List.mem_append.mp hb with hb | hb
          · exact hkeep n a b ha hb
          · -- the bid this invocation recorded
            obtain rfl := List.mem_singleton.mp hb
            exact ⟨_, List.mem_append_right _ (List.mem_singleton_self _), rfl, hphase a ha⟩
        · exact hkeep n a' b ha' hb
  · rw [hsame]
    exact hkeep

/-- **In a phase-safe run every bid on record was placed inside its window by the ledger clock.** -/
theorem recorded_bids_in_window {ts : List (Tx Call)}
    (h : Along (step out self) (PhaseSafe out self) (State.empty, w) ts) :
    BidsFrom ts (run (step out self) (State.empty, w) ts).1 := by
  have hgen : ∀ us pre (sw : State × ω), BidsFrom pre sw.1 →
      Along (step out self) (PhaseSafe out self) sw us →
      BidsFrom (pre ++ us) (run (step out self) sw us).1 := by
    intro us
    induction us with
    | nil => intro pre sw hpre _; rwa [List.append_nil]
    | cons t us ih =>
        rintro pre sw hpre ⟨hsafe, hrest⟩
        have hih := ih (pre ++ [t]) _ (hpre.extend hsafe) hrest
        rwa [List.append_assoc] at hih
  exact hgen ts [] (State.empty, w) (fun _ _ _ h => by cases h) h

/-! ## An auction closed by its only bidder -/

namespace EarlyClose

open Cast

/-- The name on auction. -/
def rareXlm : Bytes := ascii "rare.xlm"

/-- The auction runs from 100 to 200. At ledger time 101 Mallory bids, and settles with `now_unix = 200`. -/
def earlyClose : List (Tx Call) :=
  [⟨⟨10, [admin], none⟩, .initializeContract admin⟩,
   ⟨⟨20, [admin], none⟩, .createAuction rareXlm usdc admin 1 100 200⟩,
   ⟨⟨101, [mallory], none⟩, .placeBid rareXlm mallory 1 101⟩,
   ⟨⟨101, [mallory], none⟩, .settle rareXlm 200⟩]

/-- **The phases are not kept by the code**: Mallory has the name at the reserve price, 99 seconds before the
    bidding ends. -/
theorem settled_while_open :
    LedgerOrder earlyClose ∧
      ¬ Along (step obliging house) (PhaseSafe obliging house) (State.empty, ()) earlyClose := by
  refine ⟨by decide, fun h => ?_⟩
  have hlast := along_split (earlyClose.take 3) [] h
  have hbefore : (run (step obliging house) (State.empty, ()) (earlyClose.take 3)).1.auction rareXlm
      = some ⟨rareXlm, 1, 100, 200, [⟨mallory, 1, 101⟩], usdc, admin⟩ := by decide +kernel
  have hopen : (run (step obliging house) (State.empty, ()) (earlyClose.take 3)).1.settlement rareXlm
      = none := by decide +kernel
  have hafter : (run (step obliging house) (State.empty, ()) earlyClose).1.settlement rareXlm
      = some ⟨some mallory, 1, 1, 200, true⟩ := by decide +kernel
  have hlate := (hlast rareXlm _ hbefore).2 ⟨hopen, _, hafter⟩
  exact absurd hlate (by decide)

end EarlyClose

end XlmNs.Auctions
