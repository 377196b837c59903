import XlmNs.Auctions.Correctness.Paging
import XlmNs.Auctions.Steps
import XlmNs.Soroban.Enumeration
import XlmNs.Soroban.Machine

/-!
# `Auctions.Correctness.Discovery` — the two ways to find an auction

`active_auctions` and `settled_auctions` cut the index at the hundredth auction and then filter; the `list_*` views
filter and then cut. `discovery_agrees_iff`: in a state that a run reaches, and at any time, they agree exactly when
cutting first loses nothing (`FoundEarly`).

## Contents
- `Indexed`: the index holds the names of the auctions; kept by every run.
- the two views of one filter.
- a hundred auctions that are over, and one that is open.
-/

namespace XlmNs.Auctions

open Soroban

variable {ω : Type} {out : Outside ω} {self : Address} {s s' : State} {w w' : ω} {nowUnix : UInt64}

/-! ## The index -/

/-- **The index holds the names of the auctions**, each once, and every auction is stored under its name. -/
structure Indexed (s : State) : Prop where
  enumerates : Enumerates s.auctionNames s.auction
  named      : ∀ name a, s.auction name = some a → a.name = name

theorem indexed_empty : Indexed State.empty := ⟨.empty, fun _ _ h => nomatch h⟩

/-- The names a call adds to the index. -/
def Call.created : Call → List Bytes
  | .createAuction name .. => [name]
  | _ => []

theorem step_auctionNames {t : Tx Call} (h : step out self (s, w) t = .ok (s', w')) :
    s'.auctionNames = s.auctionNames ++ t.call.created := by
  obtain ⟨env, c⟩ := t
  cases c with
  | initializeContract admin =>
      simp only [step, bind_eq_ok, pure_eq_ok, Prod.mk.injEq] at h
      obtain ⟨_, h, rfl, rfl⟩ := h
      obtain rfl := initializeContract_ok h
      exact (List.append_nil _).symm
  | upgrade data =>
      simp only [step, bind_eq_ok, pure_eq_ok, Prod.mk.injEq] at h
      obtain ⟨_, h, rfl, rfl⟩ := h
      obtain rfl := upgrade_ok h
      exact (List.append_nil _).symm
  | createAuction name asset treasury reservePrice startsAt endsAt =>
      simp only [step, bind_eq_ok, pure_eq_ok, Prod.mk.injEq] at h
      obtain ⟨_, h, rfl, rfl⟩ := h
      obtain ⟨_, _, _, rfl⟩ := createAuction_eq_ok.mp h
      rfl
  | placeBid name bidder amount nowUnix =>
      simp only [step, placeBid, withReentrancyLock, bind_eq_ok, pure_eq_ok, Prod.mk.injEq] at h
      obtain ⟨_, _, ⟨_, _⟩, ⟨_, _, _, _, _, _, _, _, _, _, _, _, rfl, rfl⟩, rfl, rfl⟩ := h
      exact (List.append_nil _).symm
  | settle name nowUnix =>
      simp only [step, settle, bind_eq_ok, pure_eq_ok] at h
      obtain ⟨⟨_, r⟩, ⟨a, _, _, _, _, _, h⟩, rfl⟩ := h
      cases hfinal : settleVickrey a nowUnix with
      | none =>
          rw [hfinal] at h
          simp only [pure_eq_ok, Prod.mk.injEq] at h
          obtain ⟨⟨rfl, rfl⟩, _⟩ := h
          exact (List.append_nil _).symm
      | some finalized =>
          rw [hfinal] at h
          simp only [bind_eq_ok, pure_eq_ok, Prod.mk.injEq] at h
          obtain ⟨_, _, ⟨rfl, rfl⟩, _⟩ := h
          exact (List.append_nil _).symm

theorem Indexed.of_same (h : Indexed s) (hnames : s'.auctionNames = s.auctionNames) (hauction : s'.auction = s.auction) :
    Indexed s' := by
  constructor
  · rw [hnames, hauction]
    exact h.enumerates
  · rw [hauction]
    exact h.named

theorem step_indexed {t : Tx Call} (h : Indexed s) (hok : step out self (s, w) t = .ok (s', w')) : Indexed s' := by
  have hnames := step_auctionNames hok
  obtain ⟨env, c⟩ := t
  cases step_change hok with
  | quiet hadmin hauction _ _ =>
      have hnone : c.created = [] := by
        cases c with
        | createAuction => cases hadmin
        | _ => rfl
      exact h.of_same (by rw [hnames, hnone, List.append_nil]) hauction
  | noBids _ _ hauction _ _ => exact h.of_same (hnames.trans (List.append_nil _)) hauction
  | settle _ _ _ _ hauction _ _ => exact h.of_same (hnames.trans (List.append_nil _)) hauction
  | create hnone hauction _ _ =>
      constructor
      · rw [hnames, hauction]
        exact h.enumerates.insert _ hnone
      · intro name a ha
        rw [hauction] at ha
        rcases Store.set_eq_some.mp ha with ⟨rfl, rfl⟩ | ⟨_, ha⟩
        · rfl
        · exact h.named name a ha
  | bid ha _ _ _ _ hauction _ =>
      constructor
      · rw [hnames.trans (List.append_nil _), hauction]
        exact h.enumerates.edit _ ha
      · intro name a' ha'
        rw [hauction] at ha'
        rcases Store.set_eq_some.mp ha' with ⟨rfl, rfl⟩ | ⟨_, ha'⟩
        · have hname := h.named name _ ha
          exact hname
        · exact h.named name a' ha'

theorem run_indexed (out : Outside ω) (self : Address) (w : ω) (ts : List (Tx Call)) :
    Indexed (run (step out self) (State.empty, w) ts).1 := by
  have hpreserves : Preserves (step out self) fun sw => Indexed sw.1 := fun _ _ _ h hok => step_indexed h hok
  exact hpreserves.run ts indexed_empty

/-! ## Two views of one filter -/

/-- A bounded view lists what passes the filter among the hundred oldest auctions. -/
theorem names_of_view {view : Bytes → Option Auction} {keep : Bytes → Bool}
    (h : ∀ name ∈ s.auctionNames, (view name).map Auction.name = Option.guard keep name) :
    ((auctionNames s).filterMap view).map Auction.name = (s.auctionNames.take 100).filter keep := by
  rw [List.map_filterMap, ← List.filterMap_eq_filter]
  apply List.filterMap_congr
  intro name hname
  exact h name (List.mem_of_mem_take hname)

theorem activeAuctions_names (h : Indexed s) (nowUnix : UInt64) :
    (activeAuctions s nowUnix).map Auction.name = (s.auctionNames.take 100).filter (isActive nowUnix s) := by
  apply names_of_view
  intro name hname
  obtain ⟨a, ha⟩ := (h.enumerates.mem_iff name).mp hname
  simp only [isActive, auction, ha, Option.guard]
  by_cases hsettled : (s.settlement name).isSome = true
  · simp [hsettled]
  · by_cases hopen : isTimeWindowOpen nowUnix a.startsAt a.endsAt
    · have hnow : a.startsAt ≤ nowUnix ∧ nowUnix ≤ a.endsAt := hopen
      simp [hsettled, hopen, hnow, h.named name a ha]
    · have hnow : ¬ (a.startsAt ≤ nowUnix ∧ nowUnix ≤ a.endsAt) := hopen
      simp [hsettled, hopen, hnow]

theorem settledAuctions_names (h : Indexed s) :
    (settledAuctions s).map Auction.name = (s.auctionNames.take 100).filter (isSettled s) := by
  apply names_of_view
  intro name hname
  obtain ⟨a, ha⟩ := (h.enumerates.mem_iff name).mp hname
  simp only [isSettled, auction, ha, Option.guard]
  by_cases hsettled : (s.settlement name).isSome = true
  · simp [hsettled, h.named name a ha]
  · simp [hsettled]

/-- **Cutting before filtering loses nothing**: no auction after the hundredth passes, or the first hundred all do. -/
def FoundEarly (keep : Bytes → Bool) (index : List Bytes) : Prop :=
  (∀ name ∈ index.drop 100, keep name = false) ∨ ∀ name ∈ index.take 100, keep name = true

/-- The first page of a filter, against the names a bounded view lists. -/
theorem firstPage_eq_iff (s : State) (keep : State → Bytes → Bool) :
    filterIndex s 0 100 keep = .ok ((s.auctionNames.take 100).filter (keep s)) ↔ FoundEarly (keep s) s.auctionNames := by
  have hfits : (0 : UInt32).toNat + pageSize 100 ≤ u32Max := by decide
  rw [filterIndex_eq (Nat.le_trans (Nat.min_le_right _ _) hfits), FoundEarly, ← filter_take_eq_iff]
  exact ⟨fun h => Except.ok.inj h, fun h => congrArg Except.ok h⟩

/-- **Auction discovery agrees** in a state and at a time: both ways list the same auctions in the same order. -/
def DiscoveryAgrees (s : State) (nowUnix : UInt64) : Prop :=
  listActiveAuctions s nowUnix 0 100 = .ok ((activeAuctions s nowUnix).map Auction.name) ∧
    listSettledAuctions s 0 100 = .ok ((settledAuctions s).map Auction.name)

theorem Indexed.discoveryAgrees_iff (h : Indexed s) (nowUnix : UInt64) :
    DiscoveryAgrees s nowUnix ↔
      FoundEarly (isActive nowUnix s) s.auctionNames ∧ FoundEarly (isSettled s) s.auctionNames := by
  rw [DiscoveryAgrees, activeAuctions_names h, settledAuctions_names h]
  exact and_congr (firstPage_eq_iff s (isActive nowUnix)) (firstPage_eq_iff s isSettled)

/-- **Auction discovery agrees exactly where cutting the index loses nothing**, in every state that a run reaches and at
    every time. -/
theorem discovery_agrees_iff (out : Outside ω) (self : Address) (w : ω) (ts : List (Tx Call)) (nowUnix : UInt64) :
    let s := (run (step out self) (State.empty, w) ts).1
    DiscoveryAgrees s nowUnix ↔
      FoundEarly (isActive nowUnix s) s.auctionNames ∧ FoundEarly (isSettled s) s.auctionNames :=
  (run_indexed out self w ts).discoveryAgrees_iff nowUnix

/-! ## A hundred auctions that are over, and one that is open -/

namespace Crowded

open Cast

/-- The names `lot-aa.xlm`, `lot-ab.xlm`, …. -/
def lot (i : Nat) : Bytes := ascii "lot-" ++ [UInt8.ofNat (97 + i / 26), UInt8.ofNat (97 + i % 26)] ++ ascii ".xlm"

/-- The first hundred auctions are open from 10 to 20, the next ones until 90. -/
def sale (i : Nat) : Auction := ⟨lot i, 1, 10, if i < 100 then 20 else 90, [], usdc, admin⟩

/-- The admin opens the `i`-th auction. -/
def creation (i : Nat) : Tx Call := ⟨⟨2, [admin], none⟩, .createAuction (lot i) usdc admin 1 10 (sale i).endsAt⟩

/-- The first `n` auctions are created, in order. -/
def crowded (n : Nat) : List (Tx Call) :=
  ⟨⟨1, [admin], none⟩, .initializeContract admin⟩ :: (List.range n).map creation

/-- The storage with the first `n` auctions. -/
def opened (n : Nat) : State := (run (step obliging house) (State.empty, ()) (crowded n)).1

theorem lot_injective {i j : Nat} (hi : i < 101) (hj : j < 101) (h : lot i = lot j) : i = j := by
  simp only [lot, List.append_assoc, List.append_cancel_left_eq, List.cons_append, List.cons.injEq] at h
  obtain ⟨hquot, hrem, _⟩ := h
  have hquot := congrArg UInt8.toNat hquot
  have hrem := congrArg UInt8.toNat hrem
  rw [UInt8.toNat_ofNat_of_lt' (by simp only [UInt8.size]; omega),
    UInt8.toNat_ofNat_of_lt' (by simp only [UInt8.size]; omega)] at hquot hrem
  omega

theorem validateFqdn_lot {i : Nat} (hi : i < 101) : validateFqdnSoroban (lot i) = .ok () := by
  have hall : ∀ i ∈ List.range 101, validateFqdnSoroban (lot i) = .ok () := by decide +kernel
  exact hall i (List.mem_range.mpr hi)

theorem opened_succ (n : Nat) : opened (n + 1) = (exec (step obliging house) (opened n, ()) (creation n)).1 := by
  unfold opened crowded
  rw [List.range_succ, List.map_append, List.map_cons, List.map_nil, ← List.cons_append, run_append]
  rfl

/-- What the storage holds when `n` auctions were created. -/
theorem opened_spec {n : Nat} (hn : n ≤ 101) :
    (opened n).admin = some admin ∧ (opened n).settlement = (fun _ => none) ∧
      (opened n).auctionNames = (List.range n).map lot ∧
        ∀ i < 101, (opened n).auction (lot i) = if i < n then some (sale i) else none := by
  induction n with
  | zero => exact ⟨rfl, rfl, rfl, fun i _ => rfl⟩
  | succ n ih =>
      obtain ⟨hadmin, hsettlement, hnames, hauction⟩ := ih (by omega)
      have hnone : (opened n).auction (lot n) = none := by
        rw [hauction n (by omega), if_neg (Nat.lt_irrefl n)]
      have hok : step obliging house (opened n, ()) (creation n)
          = .ok ({ putAuction (opened n) (lot n) (sale n) with auctionNames := (opened n).auctionNames ++ [lot n] }, ()) := by
        have hauth : (creation n).env.Authorises admin := by
          show (⟨2, [admin], none⟩ : Env).Authorises admin
          decide
        show (createAuction _ _ _ _ _ _ _ _ >>= fun s => pure (s, ())) = _
        rw [createAuction_eq_ok.mpr ⟨⟨admin, hadmin, hauth⟩, validateFqdn_lot (by omega), hnone, rfl⟩]
        rfl
      rw [opened_succ, exec_ok hok]
      refine ⟨hadmin, hsettlement, ?_, ?_⟩
      · rw [List.range_succ, List.map_append, ← hnames]
        rfl
      · intro i hi
        show (opened n).auction.set (lot n) (sale n) (lot i) = _
        by_cases heq : i = n
        · subst heq
          rw [Store.set_self, if_pos (Nat.lt_succ_self i)]
        · have hne : lot i ≠ lot n := fun h => heq (lot_injective hi (by omega) h)
          rw [Store.set_ne _ _ hne, hauction i hi]
          exact if_congr (by omega) rfl rfl

theorem opened_indexed (n : Nat) : Indexed (opened n) := run_indexed obliging house () (crowded n)

/-- At 30 only the last auction is open. -/
theorem isActive_lot {i : Nat} (hi : i < 101) : isActive 30 (opened 101) (lot i) = decide (100 ≤ i) := by
  obtain ⟨_, hsettlement, _, hauction⟩ := opened_spec (Nat.le_refl 101)
  rw [isActive, hsettlement, hauction i hi, if_pos hi]
  by_cases hlate : i < 100
  · have hends : (sale i).endsAt = 20 := if_pos hlate
    have hclosed : ¬ (30 : UInt64) ≤ (sale i).endsAt := by rw [hends]; decide
    simp [hclosed, hlate]
  · have hends : (sale i).endsAt = 90 := if_neg hlate
    have hopen : (30 : UInt64) ≤ (sale i).endsAt := by rw [hends]; decide
    have hstarts : (sale i).startsAt ≤ 30 := by show (10 : UInt64) ≤ 30; decide
    simp [hopen, hstarts, Nat.not_lt.mp hlate]

theorem filter_lots {p : Bytes → Bool} {q : Nat → Bool} {l : List Nat} (h : ∀ i ∈ l, p (lot i) = q i) :
    (l.map lot).filter p = (l.filter q).map lot := by
  rw [List.filter_map]
  exact congrArg (List.map lot) (List.filter_congr h)

/-- **Auction discovery does not agree**: the auction that is open at 30 is on the first page of the one view, and the
    other lists nothing. -/
theorem open_auction_hidden :
    listActiveAuctions (opened 101) 30 0 100 = .ok [lot 100] ∧ activeAuctions (opened 101) 30 = [] ∧
      ¬ DiscoveryAgrees (opened 101) 30 := by
  have hnames := (opened_spec (Nat.le_refl 101)).2.2.1
  have hrest : ∀ i ∈ List.range 101, i < 101 := fun i hi => List.mem_range.mp hi
  have hlist : listActiveAuctions (opened 101) 30 0 100 = .ok [lot 100] := by
    have hfits : (0 : UInt32).toNat + pageSize 100 ≤ u32Max := by decide
    rw [listActiveAuctions, filterIndex_eq (Nat.le_trans (Nat.min_le_right _ _) hfits), auctionIndex, hnames,
      filter_lots fun i hi => isActive_lot (hrest i hi)]
    rfl
  have hactive : (activeAuctions (opened 101) 30).map Auction.name = [] := by
    rw [activeAuctions_names (opened_indexed 101), hnames, ← List.map_take,
      filter_lots fun i hi => isActive_lot (hrest i (List.mem_of_mem_take hi))]
    rfl
  refine ⟨hlist, List.map_eq_nil_iff.mp hactive, fun hagrees => ?_⟩
  have hsame := hlist.symm.trans hagrees.1
  rw [hactive] at hsame
  cases hsame

end Crowded

end XlmNs.Auctions
