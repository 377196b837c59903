import XlmNs.Cli.Statuses
import XlmNs.Sdk.Client

/-!
# `Cli.Portfolio` — fetching a portfolio page by page (`commands/portfolio.rs`)

`run_portfolio` asks for the names of an owner page by page. A request that times out is made again for half as many names,
and the smaller size is kept for the pages after it. With `--page` it asks for one page only. An export then asks for the
metadata of each name.

The requests are parameters (`Fetch`, `Metadata`); `listRegistrationsByOwnerPage` is the client's own, which cuts a page out
of a list. What is printed on the way and the text of an export are not modelled. A `usize` is a `Nat`, with its 64 bits
where it is multiplied.
-/

namespace XlmNs.Sdk

open Soroban

/-- A page of the names of an owner. -/
structure PortfolioPage where
  items      : List ResolutionResult
  nextCursor : Option Nat
  total      : Nat
deriving DecidableEq, Repr

/-- The page at a cursor, of at most `limit` items. -/
def cutPage (allItems : List ResolutionResult) (cursor : Option Nat) (limit : Nat) : PortfolioPage :=
  let total := allItems.length
  let start := min (cursor.getD 0) total
  let stop := min (start + limit) total
  { items      := (allItems.drop start).take (stop - start)
    nextCursor := if stop < total then some stop else none
    total }

/-- The two names the client answers with. -/
def mockItems (client : XlmNsClient) (owner : String) : List ResolutionResult :=
  [⟨"alice.xlm", some owner, client.resolverContractId, some (mockReferenceTimestamp + 31536000), false⟩,
   ⟨"bob.xlm", some owner, client.resolverContractId, some (mockReferenceTimestamp + 2 * 31536000), false⟩]

/-- A page of the client library's own two names. -/
def XlmNsClient.listRegistrationsByOwnerPage (client : XlmNsClient) (owner : String) (cursor : Option Nat) (limit : Nat) :
    Except SdkError PortfolioPage :=
  if isBlank owner then .error (.invalidRequest "owner must not be empty")
  else if limit = 0 then .error (.invalidRequest "portfolio page size must be greater than zero")
  else .ok (cutPage (mockItems client owner) cursor limit)

end XlmNs.Sdk

namespace XlmNs.Cli

open Soroban
open Sdk (ResolutionResult SdkError PortfolioPage)

/-- `DEFAULT_BATCH_SIZE` -/
def defaultBatchSize : Nat := 50

/-- `MIN_BATCH_SIZE` -/
def minBatchSize : Nat := 1

/-- How much of a portfolio to list. -/
structure PortfolioOptions where
  batchSize : Nat := defaultBatchSize
  limit     : Option Nat := none
  page      : Option Nat := none
deriving DecidableEq, Repr

/-- A batch has at least one name. -/
def PortfolioOptions.normalized (options : PortfolioOptions) : PortfolioOptions :=
  { options with batchSize := max options.batchSize minBatchSize }

/-- A failure that only says that there was no answer in time. -/
def isTimeoutError : SdkError → Bool
  | .transport message | .invalidRequest message =>
      let message := Sdk.toAsciiLowercase message
      Sdk.containsText message "timeout" || Sdk.containsText message "timed out"
  | .transactionTimeout _ _ => true
  | _ => false

/-- `client.list_registrations_by_owner_page(owner, cursor, limit)` -/
abbrev Fetch (ω : Type) := Option Nat → Nat → ω → Except SdkError PortfolioPage × ω

variable {ω : Type} (fetch : Fetch ω)

/-- `remaining_limit.map_or(page_size, |remaining| remaining.min(page_size))` -/
def requestSize (remainingLimit : Option Nat) (pageSize : Nat) : Nat :=
  match remainingLimit with
  | some remaining => min remaining pageSize
  | none           => pageSize

/-- The inner loop: the page, and the page size it was got with. -/
def fetchPage (remainingLimit cursor : Option Nat) (pageSize : Nat) (w : ω) : (Except SdkError PortfolioPage × Nat) × ω :=
  match fetch cursor (requestSize remainingLimit pageSize) w with
  | (.ok page, w')   => ((.ok page, pageSize), w')
  | (.error err, w') =>
      if isTimeoutError err = true ∧ minBatchSize < pageSize then
        fetchPage remainingLimit cursor (max (pageSize / 2) minBatchSize) w'
      else ((.error err, pageSize), w')
termination_by pageSize
decreasing_by
  simp only [minBatchSize] at *
  omega

/-- The variables of the outer loop. -/
structure Progress where
  cursor   : Option Nat
  pageSize : Nat
  fetched  : Nat
  names    : List ResolutionResult

/-- The outer loop, for at most `turns` pages; `none` if it would go on. -/
def fetchPages (options : PortfolioOptions) :
    Nat → Progress → ω → Option (Except SdkError (List ResolutionResult)) × ω
  | 0, _, w => (none, w)
  | turns + 1, p, w =>
      let remainingLimit := options.limit.map (fun limit => limit - p.fetched)
      if remainingLimit = some 0 then (some (.ok p.names), w)
      else
        match fetchPage fetch remainingLimit p.cursor p.pageSize w with
        | ((.error err, _), w')      => (some (.error err), w')
        | ((.ok page, pageSize), w') =>
            let fetched := p.fetched + page.items.length
            let names := p.names ++ page.items
            if options.page.isSome ∨ p.cursor = page.nextCursor ∨ page.nextCursor = none then (some (.ok names), w')
            else fetchPages options turns ⟨page.nextCursor, pageSize, fetched, names⟩ w'

/-! ## Exports -/

/-- What the client answers about a name (`NameRecord` of `xlm-ns-sdk/src/types.rs`). -/
structure NameMetadata where
  owner             : String
  registeredAt      : UInt64
  expiresAt         : UInt64
  gracePeriodEndsAt : UInt64
  resolver          : Option String
deriving DecidableEq, Repr

/-- `client.get_registry_metadata(name)` -/
abbrev Metadata (ω : Type) := String → ω → Except SdkError NameMetadata × ω

/-- What `build_portfolio_records` makes of a name and its metadata. -/
def exportedRecord (nowUnix : Int64) (entry : ResolutionResult) (metadata : NameMetadata) : PortfolioRecord :=
  PortfolioRecord.fromNameRecord
    { name              := entry.name
      owner             := entry.address.getD metadata.owner
      resolver          := metadata.resolver.or entry.resolver
      targetAddress     := entry.address
      metadataUri       := none
      ttlSeconds        := 0
      registeredAt      := metadata.registeredAt
      expiresAt         := metadata.expiresAt
      gracePeriodEndsAt := metadata.gracePeriodEndsAt
      transferCount     := 0 } nowUnix

/-- The first failing request ends it. -/
def buildPortfolioRecords (metadata : Metadata ω) (nowUnix : Int64) :
    List ResolutionResult → ω → Except SdkError (List PortfolioRecord) × ω
  | [], w => (.ok [], w)
  | entry :: names, w =>
      match metadata entry.name w with
      | (.error err, w') => (.error err, w')
      | (.ok found, w')  =>
          match buildPortfolioRecords metadata nowUnix names w' with
          | (.error err, w'')  => (.error err, w'')
          | (.ok records, w'') => (.ok (exportedRecord nowUnix entry found :: records), w'')

/-! ## The command -/

/-- How the list is written. -/
inductive OutputFormat
  | human
  | json
  | csv
deriving DecidableEq, Repr

/-- How the command ends: with the names it printed, with the records it wrote, with an error, or by a panic. -/
inductive Listing
  | printed (names : List ResolutionResult)
  | exported (records : List PortfolioRecord)
  | failed (err : SdkError)
  | panicked
deriving DecidableEq

/-- `a * b` on `usize`: an overflow panics in a build that checks for it, and wraps in one that does not. -/
def usizeMul (overflowChecks : Bool) (a b : Nat) : Option Nat :=
  if overflowChecks = true ∧ 2 ^ 64 ≤ a * b then none else some (a * b % 2 ^ 64)

/-- The cursor the listing starts with; `none` where computing it panics. -/
def startCursor (overflowChecks : Bool) (options : PortfolioOptions) : Option (Option Nat) :=
  match options.page with
  | none      => some none
  | some page => (usizeMul overflowChecks (page - 1) options.batchSize).map some

/-- The last `match` of `run_portfolio`. -/
def writeOut (metadata : Metadata ω) (nowUnix : Int64) (output : OutputFormat) (names : List ResolutionResult) (w : ω) :
    Listing × ω :=
  match output with
  | .human       => (.printed names, w)
  | .json | .csv =>
      match buildPortfolioRecords metadata nowUnix names w with
      | (.error err, w')  => (.failed err, w')
      | (.ok records, w') => (.exported records, w')

/-- `run_portfolio`, for at most `turns` pages; an error under the message that names the owner. -/
def runPortfolio (metadata : Metadata ω) (overflowChecks : Bool) (clock : SystemTime) (output : OutputFormat)
    (turns : Nat) (options : PortfolioOptions) (w : ω) : Option Listing × ω :=
  let options := options.normalized
  match startCursor overflowChecks options with
  | none        => (some .panicked, w)
  | some cursor =>
      match fetchPages fetch options turns { cursor, pageSize := options.batchSize, fetched := 0, names := [] } w with
      | (none, w')              => (none, w')
      | (some (.error err), w') => (some (.failed err), w')
      | (some (.ok names), w')  =>
          let (result, w'') := writeOut metadata clock.asSecs.toInt64 output names w'
          (some result, w'')

end XlmNs.Cli
