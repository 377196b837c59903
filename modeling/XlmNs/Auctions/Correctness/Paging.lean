import XlmNs.Auctions.Discovery
import XlmNs.Soroban.Paging

/-!
# `Auctions.Correctness.Paging` — the paged views return pages

`slice_index` and `filter_index` are loops over machine integers with an early exit. Both return a `page` of a list,
cut at `MAX_PAGE_SIZE`, and no sum in them overflows (`sliceIndex_eq`, `filterIndex_eq`).

## Contents
- the two loops: one turn, and from any point of their run.
- `paging_exact`: the pages, and what reading them one after the other yields.
-/

namespace XlmNs.Auctions

open Soroban

variable {s : State} {keep : Bytes → Bool} {name : Bytes} {index names seen : List Bytes}
variable {offset limit matched total i taken next : UInt32}

/-! ## The limit -/

/-- The limit a query really has. -/
def pageSize (limit : UInt32) : Nat := min limit.toNat maxPageSize.toNat

theorem toNat_cappedLimit (limit : UInt32) : (cappedLimit limit).toNat = pageSize limit := by
  unfold cappedLimit pageSize
  split
  · rename_i h
    rw [Nat.min_eq_right (Nat.le_of_lt (UInt32.lt_iff_toNat_lt.mp h))]
  · rename_i h
    rw [Nat.min_eq_left (UInt32.le_iff_toNat_le.mp (UInt32.not_lt.mp h))]

/-! ## `filter_index` -/

theorem filterLoop_skip (h : keep name = false) (emitted : List Bytes) :
    filterLoop keep offset limit (name :: names) matched emitted = filterLoop keep offset limit names matched emitted := by
  rw [filterLoop, if_pos h]

/-- A match is counted, and goes on the page or not; a full page ends the loop. -/
theorem filterLoop_match (h : keep name = true) (hmatched : matched.toNat = seen.length)
    (hadd : checkedAdd32 matched 1 = some next) :
    filterLoop keep offset limit (name :: names) matched (page offset.toNat limit.toNat seen) =
      if limit.toNat ≤ (page offset.toNat limit.toNat (seen ++ [name])).length then
        .ok (page offset.toNat limit.toNat (seen ++ [name]))
      else filterLoop keep offset limit names next (page offset.toNat limit.toNat (seen ++ [name])) := by
  have hemitted : (if offset ≤ matched ∧ (page offset.toNat limit.toNat seen).length < limit.toNat
      then page offset.toNat limit.toNat seen ++ [name] else page offset.toNat limit.toNat seen)
      = page offset.toNat limit.toNat (seen ++ [name]) := by
    rw [page_snoc]
    apply if_congr
    · rw [UInt32.le_iff_toNat_le, hmatched]
    · rfl
    · rfl
  have hkept : ¬ keep name = false := by simp [h]
  rw [filterLoop, if_neg hkept, hadd]
  simp only [hemitted, invoke]
  rfl

/-- **The filtering loop**, when it has seen the matches `seen` and put their page out. The counter has room for the
    matches it can meet: all there are, or those up to the end of the page. -/
theorem filterLoop_eq (hmatched : matched.toNat = seen.length)
    (hroom : seen = [] ∨ (page offset.toNat limit.toNat seen).length < limit.toNat)
    (hfits : min (seen.length + (names.filter keep).length) (offset.toNat + limit.toNat) ≤ u32Max) :
    filterLoop keep offset limit names matched (page offset.toNat limit.toNat seen)
      = .ok (page offset.toNat limit.toNat (seen ++ names.filter keep)) := by
  induction names generalizing matched seen with
  | nil =>
      rw [List.filter_nil, List.append_nil]
      rfl
  | cons name names ih =>
      cases hkeep : keep name with
      | false =>
          rw [List.filter_cons_of_neg (by simp [hkeep])] at hfits ⊢
          rw [filterLoop_skip hkeep]
          exact ih hmatched hroom hfits
      | true =>
          rw [List.filter_cons_of_pos hkeep] at hfits ⊢
          rw [List.length_cons] at hfits
          have hone : (1 : UInt32).toNat = 1 := rfl
          have hcount : matched.toNat + (1 : UInt32).toNat ≤ u32Max := by
            rw [hmatched, hone]
            rcases hroom with rfl | hroom
            · show 0 + 1 ≤ u32Max
              decide
            · rw [length_page] at hroom
              omega
          obtain ⟨next, hadd, hnext⟩ := checkedAdd32_of_le hcount
          have hsnoc : seen ++ name :: names.filter keep = (seen ++ [name]) ++ names.filter keep := by simp
          rw [filterLoop_match hkeep hmatched hadd, hsnoc]
          split
          · rename_i hfull
            rw [page_append_of_full _ hfull]
          · rename_i hopen
            apply ih
            · rw [hnext, hmatched, hone, List.length_append, List.length_singleton]
            · exact Or.inr (Nat.not_le.mp hopen)
            · rw [List.length_append, List.length_singleton]
              omega

/-- **`filter_index` returns a page of the matching names**, if the page ends within `u32` or the matches do. -/
theorem filterIndex_eq {keep : State → Bytes → Bool}
    (hfits : min ((auctionIndex s).filter (keep s)).length (offset.toNat + pageSize limit) ≤ u32Max) :
    filterIndex s offset limit keep
      = .ok (page offset.toNat (pageSize limit) ((auctionIndex s).filter (keep s))) := by
  have hempty : ([] : List Bytes) = page offset.toNat (cappedLimit limit).toNat [] := (page_nil _ _).symm
  rw [← toNat_cappedLimit] at hfits ⊢
  unfold filterIndex
  rw [hempty]
  apply filterLoop_eq rfl (Or.inl rfl)
  rw [List.length_nil, Nat.zero_add]
  exact hfits

/-! ## `slice_index` -/

theorem sliceLoop_done (h : ¬ i < total) (out : List Bytes) : sliceLoop index total offset limit i out = .ok out := by
  rw [sliceLoop, dif_neg h]
  rfl

/-- One more name is put out, as long as the page is not full. -/
theorem sliceLoop_next (h : i < total) (hsub : checkedSub32 i offset = some taken)
    (hadd : checkedAdd32 i 1 = some next) (hget : index[i.toNat]? = some name) (out : List Bytes) :
    sliceLoop index total offset limit i out =
      if taken < limit then sliceLoop index total offset limit next (out ++ [name]) else .ok out := by
  rw [sliceLoop, dif_pos h, hsub]
  simp only [invoke, hget]
  show (if taken < limit then _ else _) = _
  split
  · split
    · rename_i hadd'
      obtain rfl := Option.some.inj (hadd.symm.trans hadd')
      rfl
    · rename_i hnone
      cases hadd.symm.trans hnone
  · rfl

/-- **The slicing loop**, when it has put out the names from `offset` to `i`. -/
theorem sliceLoop_eq (htotal : total.toNat = index.length) (hstart : offset.toNat ≤ i.toNat)
    (hend : i.toNat ≤ index.length) (hlimit : i.toNat - offset.toNat ≤ limit.toNat) :
    sliceLoop index total offset limit i (page offset.toNat (i.toNat - offset.toNat) index)
      = .ok (page offset.toNat limit.toNat index) := by
  generalize hleft : index.length - i.toNat = left
  induction left generalizing i with
  | zero =>
      have hdone : ¬ i < total := by
        rw [UInt32.lt_iff_toNat_lt]
        omega
      rw [sliceLoop_done hdone, page_eq_of_le (by omega) (by omega : index.length ≤ offset.toNat + limit.toNat)]
  | succ left ih =>
      have hmore : i < total := by
        rw [UInt32.lt_iff_toNat_lt]
        omega
      have hone : (1 : UInt32).toNat = 1 := rfl
      have hroom : i.toNat + (1 : UInt32).toNat ≤ u32Max := by
        have := toNat_le_u32Max total
        omega
      obtain ⟨taken, hsub, htaken⟩ := checkedSub32_of_le hstart
      obtain ⟨next, hadd, hnext⟩ := checkedAdd32_of_le hroom
      have hget : index[i.toNat]? = some index[i.toNat] := List.getElem?_eq_getElem (by omega)
      rw [sliceLoop_next hmore hsub hadd hget]
      split
      · rename_i hopen
        have hopen := UInt32.lt_iff_toNat_lt.mp hopen
        have hgrow : page offset.toNat (next.toNat - offset.toNat) index
            = page offset.toNat (i.toNat - offset.toNat) index ++ [index[i.toNat]] := by
          have hsize : next.toNat - offset.toNat = (i.toNat - offset.toNat) + 1 := by omega
          rw [hsize]
          apply page_succ
          rw [Nat.add_sub_cancel' hstart]
          exact hget
        rw [← hgrow]
        exact ih (by omega) (by omega) (by omega) (by omega)
      · rename_i hfull
        rw [UInt32.lt_iff_toNat_lt] at hfull
        have hsize : i.toNat - offset.toNat = limit.toNat := by omega
        rw [hsize]

/-- **`slice_index` returns a page of the index.** -/
theorem sliceIndex_eq (hlen : index.length ≤ u32Max) (offset limit : UInt32) :
    sliceIndex index offset limit = .ok (page offset.toNat (pageSize limit) index) := by
  have htotal : (UInt32.ofNat index.length).toNat = index.length := toNat_ofNat_u32 hlen
  show (if UInt32.ofNat index.length ≤ offset then _ else _) = _
  split
  · rename_i hpast
    rw [UInt32.le_iff_toNat_le, htotal] at hpast
    rw [page, List.drop_eq_nil_of_le hpast, List.take_nil]
    rfl
  · rename_i hwithin
    rw [UInt32.le_iff_toNat_le, htotal] at hwithin
    have hempty : ([] : List Bytes) = page offset.toNat (offset.toNat - offset.toNat) index := by
      rw [Nat.sub_self]
      rfl
    rw [← toNat_cappedLimit, hempty]
    exact sliceLoop_eq htotal (Nat.le_refl _) (by omega) (by omega)

/-! ## Reading page after page -/

/-- What the first `n` pages of size `k` of a paged view hold, read at the offsets 0, k, 2k, …. -/
def readPages (list : UInt32 → UInt32 → Result (List Bytes)) (k : UInt32) : Nat → Result (List Bytes)
  | 0 => return []
  | n + 1 => do
      let names ← readPages list k n
      let next ← list (UInt32.ofNat (n * k.toNat)) k
      return names ++ next

/-- `n` pages of size `k` cover `m` names, and every offset they are read at is a `u32`. -/
def Covers (k : UInt32) (n m : Nat) : Prop := m ≤ n * k.toNat ∧ ∀ j < n, j * k.toNat ≤ u32Max

/-- A view returns the pages of `names`. -/
def Pages (list : UInt32 → UInt32 → Result (List Bytes)) (names : List Bytes) : Prop :=
  ∀ offset limit, list offset limit = .ok (page offset.toNat (pageSize limit) names)

theorem exists_covers {k : UInt32} {m : Nat} (hk : 0 < k) (hm : m ≤ u32Max) : ∃ n, Covers k n m := by
  obtain ⟨n, hcover, hstart⟩ := exists_pages (UInt32.lt_iff_toNat_lt.mp hk) m
  refine ⟨n, hcover, fun j hj => ?_⟩
  have := hstart j hj
  omega

theorem readPages_eq {list : UInt32 → UInt32 → Result (List Bytes)} (h : Pages list names) {k : UInt32} {n : Nat}
    (hk : k ≤ maxPageSize) (hoffsets : ∀ j < n, j * k.toNat ≤ u32Max) :
    readPages list k n = .ok (names.take (n * k.toNat)) := by
  have hsize : pageSize k = k.toNat := Nat.min_eq_left (UInt32.le_iff_toNat_le.mp hk)
  induction n with
  | zero =>
      rw [Nat.zero_mul]
      rfl
  | succ n ih =>
      unfold readPages
      rw [ih (fun j hj => hoffsets j (by omega)), h, toNat_ofNat_u32 (hoffsets n (by omega)), hsize, take_succ_mul]
      rfl

/-- Enough pages hold all there is. -/
theorem readPages_all {list : UInt32 → UInt32 → Result (List Bytes)} (h : Pages list names) {k : UInt32} {n : Nat}
    (hk : k ≤ maxPageSize) (hcover : Covers k n names.length) : readPages list k n = .ok names := by
  rw [readPages_eq h hk hcover.2, List.take_of_length_le hcover.1]

/-- Read in pages of size `k`, a view yields `names`, each of them once and in order. -/
def ReadsAll (list : UInt32 → UInt32 → Result (List Bytes)) (k : UInt32) (names : List Bytes) : Prop :=
  (∃ n, Covers k n names.length) ∧ ∀ n, Covers k n names.length → readPages list k n = .ok names

theorem Pages.readsAll {list : UInt32 → UInt32 → Result (List Bytes)} (h : Pages list names) {k : UInt32} (hpos : 0 < k)
    (hk : k ≤ maxPageSize) (hlen : names.length ≤ u32Max) : ReadsAll list k names :=
  ⟨exists_covers hpos hlen, fun _ => readPages_all h hk⟩

/-- `auction_count` tells how many pages to read. -/
theorem read_to_count (hlen : s.auctionNames.length ≤ u32Max) {k : UInt32} {n : Nat} (hk : k ≤ maxPageSize)
    (hcover : Covers k n (auctionCount s).toNat) : readPages (listAuctions s) k n = .ok s.auctionNames := by
  have hcount : (auctionCount s).toNat = s.auctionNames.length := toNat_ofNat_u32 hlen
  rw [hcount] at hcover
  exact readPages_all (sliceIndex_eq hlen) hk hcover

/-- **The paged views are exact.** Whatever the index, the filter, the offset and the limit, a view returns the names that
    pass the filter in creation order, without the first `offset`, at most `min limit 100` of them, and no sum overflows;
    read in pages of any size up to 100, every name comes up once. The length of a host `Vec` is a `u32`. -/
theorem paging_exact (s : State) (hlen : s.auctionNames.length ≤ u32Max) (keep : State → Bytes → Bool) :
    Pages (fun offset limit => filterIndex s offset limit keep) (s.auctionNames.filter (keep s)) ∧
      Pages (sliceIndex s.auctionNames) (s.auctionNames.filter fun _ => true) ∧
      ∀ k : UInt32, 0 < k → k ≤ maxPageSize →
        ReadsAll (fun offset limit => filterIndex s offset limit keep) k (s.auctionNames.filter (keep s)) ∧
          ReadsAll (sliceIndex s.auctionNames) k (s.auctionNames.filter fun _ => true) := by
  have hmatches : ∀ p : Bytes → Bool, (s.auctionNames.filter p).length ≤ u32Max :=
    fun p => Nat.le_trans (List.length_filter_le p _) hlen
  have hfilter : Pages (fun offset limit => filterIndex s offset limit keep) (s.auctionNames.filter (keep s)) := by
    intro offset limit
    exact filterIndex_eq (Nat.le_trans (Nat.min_le_left _ _) (hmatches (keep s)))
  have hslice : Pages (sliceIndex s.auctionNames) (s.auctionNames.filter fun _ => true) := by
    rw [List.filter_true]
    exact sliceIndex_eq hlen
  refine ⟨hfilter, hslice, fun k hpos hk => ⟨?_, ?_⟩⟩
  · exact hfilter.readsAll hpos hk (hmatches _)
  · exact hslice.readsAll hpos hk (hmatches _)

/-- Three auctions, one of them settled: it is on the first page of the settled ones, and two pages of two names are
    enough for all. -/
theorem paging_exact_three :
    let s : State :=
      { State.empty with
        auctionNames := [ascii "alpha.xlm", ascii "beta.xlm", ascii "gamma.xlm"]
        settlement := Store.set (fun _ => none) (ascii "beta.xlm") ⟨none, 0, 90, 41, false⟩ }
    listSettledAuctions s 0 10 = .ok [ascii "beta.xlm"] ∧
      readPages (listAuctions s) 2 2 = .ok [ascii "alpha.xlm", ascii "beta.xlm", ascii "gamma.xlm"] := by
  intro s
  obtain ⟨hfilter, _, hread⟩ := paging_exact s (by decide) isSettled
  have hcovers : Covers 2 2 (s.auctionNames.filter fun _ => true).length := by
    refine ⟨by decide, fun j hj => ?_⟩
    have : u32Max = 4294967295 := rfl
    show j * 2 ≤ u32Max
    omega
  exact ⟨hfilter 0 10, (hread 2 (by decide) (by decide)).2.2 2 hcovers⟩

end XlmNs.Auctions
