import XlmNs.Cli.Portfolio
import XlmNs.Soroban.Paging

/-!
# `Cli.Correctness.Portfolio` — no name is lost or listed twice

A service that has the names in some order and, whenever it answers, answers with the page it was asked for (`Serves`) may
fail at any time. `portfolio_complete`: without `--page`, a listing that ends well has exactly the names it was asked for,
whichever requests timed out and however small the pages became, and it ends within one turn for each name and one more.
With `--page` the smaller size shows: the page is cut short. Nor does the page start where it should if its number and size
are too large together.
-/

namespace XlmNs.Cli

open Soroban
open Sdk (ResolutionResult SdkError PortfolioPage cutPage)

variable {ω : Type} {fetch : Fetch ω} {allItems : List ResolutionResult} {options : PortfolioOptions}
variable {cursor remainingLimit : Option Nat} {pageSize limit : Nat} {w w' : ω}

/-! ## Pages -/

/-- The items of a page are the ones at its cursor. -/
theorem cutPage_items (allItems : List ResolutionResult) (cursor : Option Nat) (limit : Nat) :
    (cutPage allItems cursor limit).items = page (cursor.getD 0) limit allItems := by
  generalize hstart : cursor.getD 0 = start
  unfold cutPage page
  dsimp only
  rw [hstart]
  rcases Nat.le_total start allItems.length with hle | hle
  · rw [Nat.min_eq_left hle, List.take_eq_take_iff, List.length_drop]
    omega
  · rw [Nat.min_eq_right hle, List.drop_eq_nil_of_le hle, List.drop_length, List.take_nil, List.take_nil]

/-- The next page begins where this one ends, unless that is the end of the list. -/
theorem cutPage_nextCursor (allItems : List ResolutionResult) (cursor : Option Nat) (hlimit : 0 < limit) :
    (cutPage allItems cursor limit).nextCursor =
      if cursor.getD 0 + limit < allItems.length then some (cursor.getD 0 + limit) else none := by
  generalize hstart : cursor.getD 0 = start
  unfold cutPage
  dsimp only
  rw [hstart]
  by_cases hlt : start + limit < allItems.length
  · have hstop : min (min start allItems.length + limit) allItems.length = start + limit := by omega
    rw [hstop]
  · have hstop : min (min start allItems.length + limit) allItems.length = allItems.length := by omega
    rw [hstop, if_neg (lt_irrefl _), if_neg hlt]

/-! ## Requests -/

/-- Whenever the service answers, it answers with the page it was asked for. -/
def Serves (fetch : Fetch ω) (allItems : List ResolutionResult) : Prop :=
  ∀ cursor limit w p w', 0 < limit → fetch cursor limit w = (.ok p, w') → p = cutPage allItems cursor limit

/-- No request times out. -/
def Prompt (fetch : Fetch ω) : Prop :=
  ∀ cursor limit w err w', fetch cursor limit w = (.error err, w') → isTimeoutError err = false

theorem requestSize_pos (hlimit : remainingLimit ≠ some 0) (hsize : 1 ≤ pageSize) :
    0 < requestSize remainingLimit pageSize := by
  cases remainingLimit with
  | none           => exact hsize
  | some remaining =>
      have hpos : remaining ≠ 0 := by
        rintro rfl
        exact hlimit rfl
      unfold requestSize
      dsimp only
      omega

/-- What comes of the inner loop is the answer to a request made with the page size it ends with: one between 1 and the one
    it began with, and that one if no request times out. It gives up on a timeout only when it asks for one name. -/
theorem fetchPage_spec (fetch : Fetch ω) (remainingLimit cursor : Option Nat) (w : ω) (hsize : 1 ≤ pageSize) :
    ∃ k u answer w', fetchPage fetch remainingLimit cursor pageSize w = ((answer, k), w') ∧
      fetch cursor (requestSize remainingLimit k) u = (answer, w') ∧ 1 ≤ k ∧ k ≤ pageSize ∧
      (Prompt fetch → k = pageSize) ∧ ∀ err, answer = .error err → isTimeoutError err = true → k = 1 := by
  induction pageSize, w using fetchPage.induct fetch remainingLimit cursor with
  | case1 pageSize w page w' hfetch =>
      refine ⟨pageSize, w, .ok page, w', ?_, hfetch, hsize, le_rfl, fun _ => rfl, nofun⟩
      rw [fetchPage, hfetch]
  | case2 pageSize w err w' hfetch htimeout ih =>
      have hhalf : max (pageSize / 2) minBatchSize ≤ pageSize := by
        simp only [minBatchSize] at *
        omega
      obtain ⟨k, u, answer, w'', hrest, hlast, hone, hle, -, hgives⟩ := ih (Nat.le_max_right _ _)
      refine ⟨k, u, answer, w'', ?_, hlast, hone, hle.trans hhalf, ?_, hgives⟩
      · rw [fetchPage, hfetch]
        dsimp only
        rw [if_pos htimeout]
        exact hrest
      · intro hprompt
        rw [hprompt _ _ _ _ _ hfetch] at htimeout
        exact absurd htimeout.1 Bool.false_ne_true
  | case3 pageSize w err w' hfetch htimeout =>
      refine ⟨pageSize, w, .error err, w', ?_, hfetch, hsize, le_rfl, fun _ => rfl, ?_⟩
      · rw [fetchPage, hfetch]
        dsimp only
        rw [if_neg htimeout]
      · intro err' herr hslow
        obtain rfl : err = err' := by injection herr
        have hsmall : ¬ minBatchSize < pageSize := fun hlt => htimeout ⟨hslow, hlt⟩
        simp only [minBatchSize] at hsmall
        omega

/-- A request was refused for another reason than a timeout, or timed out with one name asked for. -/
def Refused (fetch : Fetch ω) (err : SdkError) (w' : ω) : Prop :=
  ∃ cursor limit w, fetch cursor limit w = (.error err, w') ∧ (isTimeoutError err = true → limit = 1)

/-- The inner loop gives up, or gets the page of some size. -/
theorem fetchPage_cases (cursor : Option Nat) (w : ω) (hserves : Serves fetch allItems) (hlimit : remainingLimit ≠ some 0)
    (hsize : 1 ≤ pageSize) :
    (∃ err k w', fetchPage fetch remainingLimit cursor pageSize w = ((.error err, k), w') ∧ Refused fetch err w') ∨
    ∃ k w', 1 ≤ k ∧ k ≤ pageSize ∧ (Prompt fetch → k = pageSize) ∧
      fetchPage fetch remainingLimit cursor pageSize w
        = ((.ok (cutPage allItems cursor (requestSize remainingLimit k)), k), w') := by
  obtain ⟨k, u, answer, w', hfetch, hlast, hone, hle, hsame, hgives⟩ :=
    fetchPage_spec fetch remainingLimit cursor w hsize
  have hpos := requestSize_pos hlimit hone
  cases answer with
  | error err =>
      refine Or.inl ⟨err, k, w', hfetch, cursor, requestSize remainingLimit k, u, hlast, ?_⟩
      intro hslow
      obtain rfl : k = 1 := hgives err rfl hslow
      cases remainingLimit with
      | none           => rfl
      | some remaining => exact le_antisymm (Nat.min_le_right _ _) hpos
  | ok page =>
      rw [hserves _ _ _ _ _ hpos hlast] at hfetch
      exact Or.inr ⟨k, w', hone, hle, hsame, hfetch⟩

/-! ## Turns -/

/-- The first `limit` of some names, or all of them. -/
def upTo (limit : Option Nat) (names : List ResolutionResult) : List ResolutionResult :=
  match limit with
  | some limit => names.take limit
  | none       => names

theorem page_requestSize (offset : Nat) (limit : Option Nat) :
    page offset (requestSize limit pageSize) allItems = upTo limit (page offset pageSize allItems) := by
  cases limit with
  | none       => rfl
  | some limit => exact (List.take_take (l := allItems.drop offset)).symm

/-- Before each turn the listing has the first `fetched` names, and asks for the one after them. -/
structure Progress.Inv (allItems : List ResolutionResult) (options : PortfolioOptions) (p : Progress) : Prop where
  cursor  : p.cursor.getD 0 = p.fetched
  names   : p.names = allItems.take p.fetched
  within  : p.fetched ≤ allItems.length
  limited : ∀ limit, options.limit = some limit → p.fetched ≤ limit
  size    : 1 ≤ p.pageSize

namespace Progress.Inv

variable {p : Progress} {n k : Nat}

/-- The names with the next page are one beginning of the list. -/
theorem names_append (hinv : p.Inv allItems options) (n : Nat) :
    p.names ++ page p.fetched n allItems = allItems.take (p.fetched + n) := by
  rw [hinv.names, List.take_add, page]

/-- A turn that gets `n` names and is told of more. -/
theorem next (hinv : p.Inv allItems options) (hmore : p.fetched + n < allItems.length)
    (hlimited : ∀ limit, options.limit = some limit → p.fetched + n ≤ limit) (hsize : 1 ≤ k) :
    Progress.Inv allItems options
      ⟨some (p.fetched + n), k, p.fetched + (page p.fetched n allItems).length, p.names ++ page p.fetched n allItems⟩ := by
  have hlength : (page p.fetched n allItems).length = n := by
    rw [length_page]
    omega
  rw [hlength, hinv.names_append]
  exact ⟨rfl, rfl, hmore.le, hlimited, hsize⟩

/-- A page asked for stays within the limit. -/
theorem requestSize_le (hinv : p.Inv allItems options) :
    ∀ limit, options.limit = some limit →
      p.fetched + requestSize (options.limit.map (fun limit => limit - p.fetched)) k ≤ limit := by
  intro limit hsome
  have hfetched := hinv.limited limit hsome
  rw [hsome]
  dsimp only [Option.map_some, requestSize]
  omega

/-- A turn that is told of no more. -/
theorem last (hinv : p.Inv allItems options)
    (hdone : allItems.length ≤ p.fetched + requestSize (options.limit.map (fun limit => limit - p.fetched)) k) :
    p.names ++ page p.fetched (requestSize (options.limit.map (fun limit => limit - p.fetched)) k) allItems
      = upTo options.limit allItems := by
  rw [hinv.names_append]
  cases hlimit : options.limit with
  | none       =>
      rw [hlimit] at hdone
      exact List.take_of_length_le hdone
  | some limit =>
      have hfetched := hinv.limited limit hlimit
      rw [hlimit] at hdone
      dsimp only [Option.map_some, requestSize] at hdone ⊢
      rw [upTo, List.take_eq_take_iff]
      omega

/-- The turn before which the limit is reached. -/
theorem reached (hinv : p.Inv allItems options)
    (hlimit : options.limit.map (fun limit => limit - p.fetched) = some 0) : p.names = upTo options.limit allItems := by
  obtain ⟨limit, hsome, hzero⟩ := Option.map_eq_some_iff.mp hlimit
  have hfetched := hinv.limited limit hsome
  obtain rfl : p.fetched = limit := by omega
  rw [hsome, hinv.names, upTo]

end Progress.Inv

/-! ## The outer loop -/

section Turn

variable {p : Progress} {k : Nat} {w' : ω} (turns : Nat)

theorem fetchPages_reached (hlimit : options.limit.map (fun limit => limit - p.fetched) = some 0) :
    fetchPages fetch options (turns + 1) p w = (some (.ok p.names), w) := by
  rw [fetchPages]
  dsimp only
  rw [if_pos hlimit]

variable (hlimit : options.limit.map (fun limit => limit - p.fetched) ≠ some 0)
include hlimit

theorem fetchPages_failed {err : SdkError}
    (hfetch : fetchPage fetch (options.limit.map fun limit => limit - p.fetched) p.cursor p.pageSize w = ((.error err, k), w')) :
    fetchPages fetch options (turns + 1) p w = (some (.error err), w') := by
  rw [fetchPages]
  dsimp only
  rw [if_neg hlimit, hfetch]

variable {found : PortfolioPage}
  (hfetch : fetchPage fetch (options.limit.map fun limit => limit - p.fetched) p.cursor p.pageSize w = ((.ok found, k), w'))
include hfetch

/-- The turn with the last page. -/
theorem fetchPages_last (hstop : options.page.isSome ∨ p.cursor = found.nextCursor ∨ found.nextCursor = none) :
    fetchPages fetch options (turns + 1) p w = (some (.ok (p.names ++ found.items)), w') := by
  rw [fetchPages]
  dsimp only
  rw [if_neg hlimit, hfetch]
  dsimp only
  rw [if_pos hstop]

/-- A turn with another one after it. -/
theorem fetchPages_next (hmore : ¬ (options.page.isSome ∨ p.cursor = found.nextCursor ∨ found.nextCursor = none)) :
    fetchPages fetch options (turns + 1) p w = fetchPages fetch options turns
      ⟨found.nextCursor, k, p.fetched + found.items.length, p.names ++ found.items⟩ w' := by
  rw [fetchPages]
  dsimp only
  rw [if_neg hlimit, hfetch]
  dsimp only
  rw [if_neg hmore]

end Turn

/-- Without `--page`, the loop ends within a turn for each name that is left, with all the names that were asked for. -/
theorem fetchPages_whole {p : Progress} {turns : Nat} (hserves : Serves fetch allItems) (hpage : options.page = none)
    (hinv : p.Inv allItems options) (hturns : allItems.length - p.fetched < turns) :
    ∃ result w', fetchPages fetch options turns p w = (some result, w') ∧
      (∀ names, result = .ok names → names = upTo options.limit allItems) ∧
      ∀ err, result = .error err → Refused fetch err w' := by
  induction turns generalizing p w with
  | zero => exact absurd hturns (Nat.not_lt_zero _)
  | succ turns ih =>
      by_cases hlimit : options.limit.map (fun limit => limit - p.fetched) = some 0
      · refine ⟨.ok p.names, w, fetchPages_reached turns hlimit, ?_, nofun⟩
        rintro names heq
        injection heq with hnames
        rw [← hnames]
        exact hinv.reached hlimit
      · rcases fetchPage_cases p.cursor w hserves hlimit hinv.size with
          ⟨err, k, w', hfetch, hrefused⟩ | ⟨k, w', hone, -, -, hfetch⟩
        · refine ⟨.error err, w', fetchPages_failed turns hlimit hfetch, nofun, ?_⟩
          rintro err' heq
          injection heq with herr
          rwa [← herr]
        · have hpos := requestSize_pos hlimit hone
          have hlast := hinv.last (k := k)
          have hlimited := hinv.requestSize_le (k := k)
          have hstop := fetchPages_last turns hlimit hfetch
          have hgoes := fetchPages_next turns hlimit hfetch
          generalize requestSize (options.limit.map (fun limit => limit - p.fetched)) k = n
            at hpos hlast hlimited hstop hgoes
          have hnext := cutPage_nextCursor allItems p.cursor hpos
          have hitems := cutPage_items allItems p.cursor n
          rw [hinv.cursor] at hnext hitems
          rw [hnext, hitems] at hstop hgoes
          by_cases hmore : p.fetched + n < allItems.length
          · -- the service has more names, and the cursor moves on
            rw [if_pos hmore] at hgoes
            have hmoves : ¬ (options.page.isSome = true ∨ p.cursor = some (p.fetched + n) ∨ some (p.fetched + n) = none) := by
              rintro (h | h | h)
              · rw [hpage] at h
                exact Bool.false_ne_true h
              · have hcursor := hinv.cursor
                rw [h] at hcursor
                dsimp only [Option.getD_some] at hcursor
                omega
              · exact Option.some_ne_none _ h
            have hlength := length_page p.fetched n allItems
            obtain ⟨result, w'', hrest, hok, herror⟩ :=
              ih (hinv.next hmore hlimited hone) (w := w') (by dsimp only; omega)
            exact ⟨result, w'', (hgoes hmoves).trans hrest, hok, herror⟩
          · -- the page reaches the end
            rw [if_neg hmore] at hstop
            refine ⟨.ok (p.names ++ page p.fetched n allItems), w', hstop (Or.inr (Or.inr rfl)), ?_, nofun⟩
            rintro names heq
            injection heq with hnames
            rw [← hnames]
            exact hlast (Nat.le_of_not_lt hmore)

/-- With `--page`, the loop ends with the first page it gets. -/
theorem fetchPages_page {p : Progress} {number : Nat} (turns : Nat) (hserves : Serves fetch allItems)
    (hpage : options.page = some number) (hfresh : p.names = []) (hfetched : p.fetched = 0) (hsize : 1 ≤ p.pageSize) :
    ∃ result w', fetchPages fetch options (turns + 1) p w = (some result, w') ∧
      (∀ names, result = .ok names → ∃ k, 1 ≤ k ∧ k ≤ p.pageSize ∧ (Prompt fetch → k = p.pageSize) ∧
        names = upTo options.limit (page (p.cursor.getD 0) k allItems)) ∧
      ∀ err, result = .error err → Refused fetch err w' := by
  have hremaining : options.limit.map (fun limit => limit - p.fetched) = options.limit := by
    rw [hfetched]
    cases options.limit <;> rfl
  by_cases hlimit : options.limit.map (fun limit => limit - p.fetched) = some 0
  · refine ⟨.ok p.names, w, fetchPages_reached turns hlimit, ?_, nofun⟩
    rintro names heq
    injection heq with hnames
    refine ⟨p.pageSize, hsize, le_rfl, fun _ => rfl, ?_⟩
    rw [← hnames, hfresh, hremaining.symm.trans hlimit]
    rfl
  · rcases fetchPage_cases p.cursor w hserves hlimit hsize with
      ⟨err, k, w', hfetch, hrefused⟩ | ⟨k, w', hone, hle, hsame, hfetch⟩
    · refine ⟨.error err, w', fetchPages_failed turns hlimit hfetch, nofun, ?_⟩
      rintro err' heq
      injection heq with herr
      rwa [← herr]
    · have hpaged : options.page.isSome := by
        rw [hpage]
        exact Option.isSome_some
      refine ⟨_, w', fetchPages_last turns hlimit hfetch (Or.inl hpaged), ?_, nofun⟩
      rintro names heq
      injection heq with hnames
      refine ⟨k, hone, hle, hsame, ?_⟩
      rw [← hnames, hremaining, hfresh, List.nil_append, cutPage_items]
      exact page_requestSize _ _

/-! ## Exports -/

/-- The record of a name, with metadata the client has answered. -/
def Exported (metadata : Metadata ω) (nowUnix : Int64) (entry : ResolutionResult) (record : PortfolioRecord) : Prop :=
  ∃ found u u', metadata entry.name u = (.ok found, u') ∧ record = exportedRecord nowUnix entry found

/-- An export has a record for each name, or fails with one of its requests. -/
theorem buildPortfolioRecords_spec (metadata : Metadata ω) (nowUnix : Int64) (names : List ResolutionResult) (w : ω) :
    ∃ answer w', buildPortfolioRecords metadata nowUnix names w = (answer, w') ∧
      (∀ err, answer = .error err → ∃ name u, metadata name u = (.error err, w')) ∧
      ∀ records, answer = .ok records → List.Forall₂ (Exported metadata nowUnix) names records := by
  induction names generalizing w with
  | nil =>
      refine ⟨.ok [], w, rfl, nofun, ?_⟩
      rintro _ heq
      injection heq with heq
      rw [← heq]
      exact .nil
  | cons entry names ih =>
      rcases hfound : metadata entry.name w with ⟨err | found, w₁⟩
      · refine ⟨.error err, w₁, ?_, ?_, nofun⟩
        · rw [buildPortfolioRecords, hfound]
        · rintro err' heq
          injection heq with herr
          exact ⟨entry.name, w, by rw [hfound, herr]⟩
      · obtain ⟨answer, w₂, hrest, herror, hok⟩ := ih w₁
        cases answer with
        | error err =>
            refine ⟨.error err, w₂, ?_, herror, nofun⟩
            rw [buildPortfolioRecords, hfound]
            dsimp only
            rw [hrest]
        | ok records =>
            refine ⟨.ok (exportedRecord nowUnix entry found :: records), w₂, ?_, nofun, ?_⟩
            · rw [buildPortfolioRecords, hfound]
              dsimp only
              rw [hrest]
            · rintro _ heq
              injection heq with heq
              rw [← heq]
              exact .cons ⟨found, w, w₁, hfound, rfl⟩ (hok records rfl)

/-! ## The command -/

/-- The first name of a page, counted from 0, before it is squeezed into a `usize`. -/
def PortfolioOptions.pageStart (options : PortfolioOptions) (number : Nat) : Nat :=
  (number - 1) * options.normalized.batchSize

/-- **The names asked for**: without `--page` those of the service in its order, each once, up to the limit; with `--page`
    a beginning of that page, all of it if no request times out. -/
def AskedFor (fetch : Fetch ω) (allItems : List ResolutionResult) (options : PortfolioOptions)
    (names : List ResolutionResult) : Prop :=
  match options.page with
  | none        => names = upTo options.limit allItems
  | some number => ∃ k, 1 ≤ k ∧ k ≤ options.normalized.batchSize ∧ (Prompt fetch → k = options.normalized.batchSize) ∧
      names = upTo options.limit (page (options.pageStart number % 2 ^ 64) k allItems)

/-- The loop without the command around it. -/
theorem fetchPages_complete {turns : Nat} {start : Option Nat} {overflowChecks : Bool} (hserves : Serves fetch allItems)
    (hturns : allItems.length < turns) (hstart : startCursor overflowChecks options.normalized = some start) :
    ∃ result w', fetchPages fetch options.normalized turns ⟨start, options.normalized.batchSize, 0, []⟩ w
        = (some result, w') ∧
      (∀ names, result = .ok names → AskedFor fetch allItems options names) ∧
      ∀ err, result = .error err → Refused fetch err w' := by
  have hsize : 1 ≤ options.normalized.batchSize := Nat.le_max_right _ _
  unfold startCursor at hstart
  unfold AskedFor
  cases hpage : options.page with
  | none =>
      have hnone : options.normalized.page = none := hpage
      rw [hnone] at hstart
      obtain rfl := Option.some.inj hstart
      have hinv : Progress.Inv allItems options.normalized ⟨none, options.normalized.batchSize, 0, []⟩ :=
        ⟨rfl, List.take_zero.symm, Nat.zero_le _, fun _ _ => Nat.zero_le _, hsize⟩
      exact fetchPages_whole hserves hnone hinv hturns
  | some number =>
      have hsome : options.normalized.page = some number := hpage
      rw [hsome] at hstart
      obtain ⟨offset, hoffset, rfl⟩ := Option.map_eq_some_iff.mp hstart
      unfold usizeMul at hoffset
      split at hoffset
      · cases hoffset
      · obtain rfl := Option.some.inj hoffset
        obtain ⟨turns, rfl⟩ : ∃ n, turns = n + 1 := ⟨turns - 1, by omega⟩
        exact fetchPages_page turns
          (p := ⟨some (options.pageStart number % 2 ^ 64), options.normalized.batchSize, 0, []⟩) hserves hsome rfl rfl hsize

/-- **How a listing may end**: with the names asked for, printed or with a record for each; with a request that was refused;
    or, in a build with overflow checks, by a panic over a page that starts beyond `usize`. -/
def Ends (fetch : Fetch ω) (metadata : Metadata ω) (overflowChecks : Bool) (nowUnix : Int64) (output : OutputFormat)
    (allItems : List ResolutionResult) (options : PortfolioOptions) : Listing → ω → Prop
  | .printed names, _    => output = .human ∧ AskedFor fetch allItems options names
  | .exported records, _ => output ≠ .human ∧ ∃ names, AskedFor fetch allItems options names ∧
      List.Forall₂ (Exported metadata nowUnix) names records
  | .failed err, w'      => Refused fetch err w' ∨ (output ≠ .human ∧ ∃ name u, metadata name u = (.error err, w'))
  | .panicked, _         => overflowChecks = true ∧ ∃ number, options.page = some number ∧ 2 ^ 64 ≤ options.pageStart number

theorem writeOut_ends {metadata : Metadata ω} {overflowChecks : Bool} {nowUnix : Int64} {names : List ResolutionResult}
    (output : OutputFormat) (hnames : AskedFor fetch allItems options names) :
    ∃ result w', writeOut metadata nowUnix output names w = (result, w') ∧
      Ends fetch metadata overflowChecks nowUnix output allItems options result w' := by
  by_cases hhuman : output = .human
  · subst hhuman
    exact ⟨.printed names, w, rfl, rfl, hnames⟩
  · obtain ⟨answer, w', hrun, herror, hok⟩ := buildPortfolioRecords_spec metadata nowUnix names w
    have hwrite : writeOut metadata nowUnix output names w = match answer with
        | .error err  => (.failed err, w')
        | .ok records => (.exported records, w') := by
      cases output with
      | human => exact absurd rfl hhuman
      | json =>
          simp only [writeOut, hrun]
          cases answer <;> rfl
      | csv =>
          simp only [writeOut, hrun]
          cases answer <;> rfl
    cases answer with
    | error err  => exact ⟨_, _, hwrite, Or.inr ⟨hhuman, herror err rfl⟩⟩
    | ok records => exact ⟨_, _, hwrite, hhuman, names, hnames, hok records rfl⟩

/-- **A listing that ends well is complete.** Whatever fails and however the pages shrink, it ends within a turn for each name
    and one more, and so. -/
theorem portfolio_complete (fetch : Fetch ω) (metadata : Metadata ω) (overflowChecks : Bool) (clock : SystemTime)
    (output : OutputFormat) (allItems : List ResolutionResult) (options : PortfolioOptions) (turns : Nat) (w : ω)
    (hserves : Serves fetch allItems) (hturns : allItems.length < turns) :
    ∃ result w', runPortfolio fetch metadata overflowChecks clock output turns options w = (some result, w') ∧
      Ends fetch metadata overflowChecks clock.asSecs.toInt64 output allItems options result w' := by
  unfold runPortfolio
  dsimp only
  cases hstart : startCursor overflowChecks options.normalized with
  | none =>
      refine ⟨.panicked, w, rfl, ?_⟩
      unfold startCursor at hstart
      split at hstart
      · cases hstart
      · rename_i number hpage
        unfold usizeMul at hstart
        split at hstart
        · rename_i hover
          exact ⟨hover.1, number, hpage, hover.2⟩
        · cases hstart
  | some start =>
      obtain ⟨result, w₁, hrun, hok, herror⟩ := fetchPages_complete (w := w) hserves hturns hstart
      dsimp only
      rw [hrun]
      cases result with
      | error err => exact ⟨.failed err, w₁, rfl, Or.inl (herror err rfl)⟩
      | ok names =>
          obtain ⟨result, w', hwrite, hends⟩ := writeOut_ends (w := w₁) output (hok names rfl)
          refine ⟨result, w', ?_, hends⟩
          dsimp only
          rw [hwrite]

/-! ## Services -/

/-- The client's own answers are pages of the two names it has. -/
theorem client_serves (client : Sdk.XlmNsClient) (owner : String) :
    Serves (fun cursor limit (w : ω) => (client.listRegistrationsByOwnerPage owner cursor limit, w))
      (Sdk.mockItems client owner) := by
  intro cursor limit w p w' hlimit hanswer
  obtain ⟨hpage, -⟩ := Prod.mk.inj hanswer
  unfold Sdk.XlmNsClient.listRegistrationsByOwnerPage at hpage
  split at hpage
  · exact absurd hpage (nofun)
  · rw [if_neg hlimit.ne'] at hpage
    injection hpage with hpage
    exact hpage.symm

namespace Flaky

/-- The names of the owner. -/
def names : List ResolutionResult :=
  ["alice.xlm", "bob.xlm", "carol.xlm", "dave.xlm", "erin.xlm"].map fun name => ⟨name, some "owner", none, none, false⟩

/-- A service that times out when it is asked for more than two names. -/
def service : Fetch Nat := fun cursor limit count =>
  (if 2 < limit then .error (.transport "request timed out") else .ok (cutPage names cursor limit), count + 1)

theorem service_serves : Serves service names := by
  intro cursor limit w p w' _ hanswer
  obtain ⟨hpage, -⟩ := Prod.mk.inj hanswer
  split at hpage
  · exact absurd hpage nofun
  · injection hpage with hpage
    exact hpage.symm

/-- Nobody is asked for metadata. -/
def noMetadata : Metadata Nat := fun _ count => (.error (.transport "unreachable"), count)

/-- The clock at the export. -/
def clock : SystemTime := ⟨1700000000, 0, by decide⟩

/-- Four names asked for five at a time: a timeout, and two pages of two. -/
theorem four_names :
    ∃ result w', runPortfolio service noMetadata true clock .human 6 ⟨5, some 4, none⟩ 0 = (some result, w') ∧
      Ends service noMetadata true clock.asSecs.toInt64 .human names ⟨5, some 4, none⟩ result w' :=
  portfolio_complete service noMetadata true clock .human names ⟨5, some 4, none⟩ 6 0 service_serves (by decide)

example : runPortfolio service noMetadata true clock .human 6 ⟨5, some 4, none⟩ 0
    = (some (.printed (names.take 4)), 3) := by
  decide +kernel

/-- The product wraps: page 2^63 + 1, of two names each, is the first page. -/
example : runPortfolio service noMetadata false clock .human 6 ⟨2, none, some 9223372036854775809⟩ 0
    = (some (.printed (names.take 2)), 1) := by
  decide +kernel

end Flaky

end XlmNs.Cli
