import XlmNs.Nft.Correctness.Approvals
import XlmNs.Nft.Events

/-!
# `Nft.Correctness.EventLog` — what the log of the NFT contract tells

The snapshots of the recovery plan are to be taken by replaying events. `portfolio_replays`: from any snapshot on, the
log of a run takes the portfolio of the first state to that of the last, so that every enumeration view can be
answered from it.

The approvals are not in the log. `sync_owner` publishes the `transfer` that withdraws them elsewhere, and leaves them:
`approvals_replay_iff` says the approvals read off the log are right all along iff no accepted `sync_owner` finds its
token approved, and `approvals_not_logged` that no other reading does better.
-/

namespace XlmNs.Nft

open Soroban

variable {ω : Type} {out : Outside ω} {self : Address} {env : Env} {s s' : State} {w w' : ω} {c : Call}
variable {tokenId : Bytes} {record : TokenRecord}

theorem transferred_eq (hrecord : s.token tokenId = some record) (newOwner : Address) :
    transferred s tokenId newOwner = [.transfer record.owner newOwner tokenId] := by
  rw [transferred, hrecord]

theorem events_burn (tokenId : Bytes) (hadmin : ByAdmin env s) :
    ∃ admin, events s ⟨env, .burn tokenId⟩ = [.burn admin tokenId] := by
  obtain ⟨admin, hsome, _⟩ := hadmin
  exact ⟨admin, by simp only [events, hsome]⟩

/-- The calls that write no token publish nothing an indexer keeps. -/
theorem events_frame (h : c.isFrame = true) :
    (∀ p, replay Portfolio.apply p (events s ⟨env, c⟩) = p) ∧ ∀ g, replay applyApproval g (events s ⟨env, c⟩) = g := by
  cases c with
  | initializeContract | setRegistry | refreshNameData => exact ⟨fun _ => rfl, fun _ => rfl⟩
  | upgrade migrationData =>
      unfold events
      cases s.admin with
      | none => exact ⟨fun _ => rfl, fun _ => rfl⟩
      | some admin => exact ⟨fun _ => rfl, fun _ => rfl⟩
  | _ => cases h

/-- What a move publishes. -/
theorem Move.events {record' : TokenRecord} (hrecord : s.token tokenId = some record)
    (h : Move env s record c tokenId record') :
    Nft.events s ⟨env, c⟩ = [.transfer record.owner record'.owner tokenId] := by
  cases h with
  | transfer _ => exact transferred_eq hrecord _
  | transferFrom howner _ =>
      rw [howner]
      rfl
  | syncOwner _ => exact transferred_eq hrecord _

/-! ## The portfolio -/

/-- The owners are one attribute of the tokens. -/
theorem owners_of_set (htoken : s'.token = s.token.set tokenId record) :
    ownerOf s' = (portfolio s).owners.set tokenId record.owner :=
  Store.view_of_set TokenRecord.owner htoken rfl

theorem portfolio_owners (hrecord : s.token tokenId = some record) : (portfolio s).owners tokenId = some record.owner :=
  Store.view_eq TokenRecord.owner hrecord

/-- **The events of a committed invocation take the portfolio before it to the portfolio after it.** -/
theorem Effect.portfolio_told (h : Effect env s s' c) :
    replay Portfolio.apply (portfolio s) (events s ⟨env, c⟩) = portfolio s' := by
  cases h with
  | frame hcall htoken hids howners =>
      rw [(events_frame hcall).1]
      simp only [portfolio, hids, howners, Portfolio.mk.injEq, and_true]
      funext tokenId
      rw [ownerOf, ownerOf, htoken]
  | mint _ _ htoken hids howners =>
      simp only [portfolio, owners_of_set htoken, hids, howners]
      rfl
  | edit hrecord hedit htoken hids howners =>
      have hsame : ownerOf s' = ownerOf s := by
        apply (congrArg (Store.view TokenRecord.owner) htoken).trans
        apply Store.view_edit TokenRecord.owner hrecord
        cases hedit with
        | approve | approveClear | syncExpiry => rfl
      have hpicture : portfolio s' = portfolio s := by
        rw [portfolio, hsame, hids, howners, portfolio]
      rw [hpicture]
      cases hedit with
      | approve | approveClear | syncExpiry => rfl
  | move hrecord hmove htoken hids howners =>
      rw [hmove.events hrecord]
      simp only [portfolio, owners_of_set htoken, hids, howners]
      rfl
  | @burn tokenId record hadmin hrecord htoken hids howners =>
      obtain ⟨admin, hevents⟩ := events_burn tokenId hadmin
      have howner := portfolio_owners hrecord
      have hremoved : ownerOf s' = (portfolio s).owners.remove tokenId :=
        (congrArg (Store.view TokenRecord.owner) htoken).trans (Store.view_remove _ _ _)
      rw [hevents, replay_cons, replay_nil, Portfolio.apply_burn howner]
      simp only [portfolio, hremoved, hids, howners]

/-- **The portfolio can be rebuilt from the log.** From any state on, whoever calls what, applying the events of a run to
    the owners, the token list and the owners' lists of the first state gives those of the last, in their order. -/
theorem portfolio_replays (out : Outside ω) (self : Address) (sw : State × ω) (ts : List (Tx Call)) :
    replay Portfolio.apply (portfolio sw.1) (eventLog out self sw ts) = portfolio (run (step out self) sw ts).1 := by
  have htells : ∀ (sw : State × ω) t, Tells (step out self) (fun sw t => events sw.1 t) Portfolio.apply
      (fun sw => portfolio sw.1) sw t := by
    rintro ⟨s, w⟩ t ⟨s', w'⟩ hok
    exact (step_effect hok).portfolio_told
  exact replay_of_tells htells sw ts

/-! ## Approvals -/

/-- The approvals after a write of one token. -/
theorem approvedOn_of_set (htoken : s'.token = s.token.set tokenId record) :
    approvedOn s' = Function.update (approvedOn s) tokenId record.approved := by
  funext j
  rw [approvedOn, htoken, Store.set_apply, Function.update_apply]
  by_cases hj : j = tokenId
  · rw [if_pos hj, if_pos hj]
    rfl
  · rw [if_neg hj, if_neg hj]
    rfl

theorem approvedOn_of_remove (htoken : s'.token = s.token.remove tokenId) :
    approvedOn s' = Store.remove (approvedOn s) tokenId := by
  funext j
  rw [approvedOn, htoken, Store.remove_apply, Store.remove_apply]
  by_cases hj : j = tokenId
  · rw [if_pos hj, if_pos hj]
    rfl
  · rw [if_neg hj, if_neg hj]
    rfl

/-- What an invocation must find for the log to tell its approvals. -/
def TellsApprovals (s : State) : Call → Prop
  | .syncOwner tokenId _ => approvedOn s tokenId = none
  | _ => True

/-- **The events of a committed invocation tell the approvals iff it is no `sync_owner` of an approved token.** -/
theorem Effect.approvals_told_iff (h : Effect env s s' c) :
    replay applyApproval (approvedOn s) (events s ⟨env, c⟩) = approvedOn s' ↔ TellsApprovals s c := by
  cases h with
  | frame hcall htoken _ _ =>
      rw [(events_frame hcall).2]
      apply iff_of_true
      · funext tokenId
        rw [approvedOn, approvedOn, htoken]
      · cases c with
        | syncOwner => cases hcall
        | _ => trivial
  | mint _ _ htoken _ _ => exact iff_of_true (approvedOn_of_set htoken).symm trivial
  | edit hrecord hedit htoken _ _ =>
      rw [approvedOn_of_set htoken]
      cases hedit with
      | approve | approveClear => exact iff_of_true rfl trivial
      | syncExpiry =>
          refine iff_of_true ?_ trivial
          rw [← approvedOn_eq hrecord, Function.update_eq_self]
          rfl
  | @move _ tokenId record record' hrecord hmove htoken _ _ =>
      rw [hmove.events hrecord, approvedOn_of_set htoken]
      cases hmove with
      | transfer | transferFrom => exact iff_of_true rfl trivial
      -- the event withdraws an approval that the contract leaves
      | @syncOwner _ newOwner _ =>
          show Function.update (approvedOn s) tokenId none = _ ↔ approvedOn s tokenId = none
          rw [approvedOn_eq hrecord]
          constructor
          · intro hsame
            have hat := congrFun hsame tokenId
            rw [Function.update_self, Function.update_self] at hat
            exact hat.symm
          · intro hnone
            rw [show record.approved = none from hnone]
  | @burn tokenId record hadmin _ htoken _ _ =>
      obtain ⟨admin, hevents⟩ := events_burn tokenId hadmin
      rw [hevents, approvedOn_of_remove htoken]
      exact iff_of_true rfl trivial

/-- **When the log tells the approvals.** The approvals read off the log are the contract's after every part of a run iff
    no accepted `sync_owner` finds its token approved. -/
theorem approvals_replay_iff (out : Outside ω) (self : Address) (sw : State × ω) (ts : List (Tx Call)) :
    (∀ us, us <+: ts → replay applyApproval (approvedOn sw.1) (eventLog out self sw us) =
        approvedOn (run (step out self) sw us).1) ↔
      Along (step out self) (fun sw t => (∃ sw', step out self sw t = .ok sw') → TellsApprovals sw.1 t.call) sw ts := by
  let view : State × ω → Store Bytes Address := fun sw => approvedOn sw.1
  have hiff : ∀ (sw : State × ω) t, Tells (step out self) (fun sw t => events sw.1 t) applyApproval view sw t ↔
      ((∃ sw', step out self sw t = .ok sw') → TellsApprovals sw.1 t.call) := by
    rintro ⟨s, w⟩ t
    constructor
    · rintro htells ⟨⟨s', w'⟩, hok⟩
      exact (step_effect hok).approvals_told_iff.mp (htells _ hok)
    · rintro hlaw ⟨s', w'⟩ hok
      exact (step_effect hok).approvals_told_iff.mpr (hlaw ⟨_, hok⟩)
  show (∀ us, us <+: ts → replay applyApproval (view sw) (published (step out self) (fun sw t => events sw.1 t) sw us) =
    view (run (step out self) sw us)) ↔ _
  rw [replay_prefixes_iff]
  exact along_congr (along_of_forall hiff ts sw)

/-! ## No reading of the log tells the approvals -/

/-- **`transfer` and `sync_owner` look alike in the log**, and leave different approvals. -/
theorem moves_look_alike (out : Outside ω) (self : Address) (w : ω) (hrecord : s.token tokenId = some record)
    (hregistry : s.registry = none) (hadmin : ByAdmin env s) (newOwner : Address) :
    ∃ s₁ s₂, step out self (s, w) ⟨env, .transfer tokenId record.owner newOwner⟩ = .ok (s₁, w) ∧
      step out self (s, w) ⟨env, .syncOwner tokenId newOwner⟩ = .ok (s₂, w) ∧
      events s ⟨env, .transfer tokenId record.owner newOwner⟩ = events s ⟨env, .syncOwner tokenId newOwner⟩ ∧
      approvedOn s₁ tokenId = none ∧ approvedOn s₂ tokenId = record.approved := by
  obtain ⟨admin, hsome, hauth⟩ := hadmin
  let moved := moveToken s tokenId record newOwner
  let synced := reindexOwnerToken (putToken s tokenId { record with owner := newOwner }) record.owner newOwner tokenId
  have hmoved : moved.token tokenId = some { record with owner := newOwner, approved := none } := by
    show (moveToken s tokenId record newOwner).token tokenId = _
    unfold moveToken
    rw [reindexOwnerToken_token]
    exact Store.set_self _ _ _
  have hsynced : synced.token tokenId = some { record with owner := newOwner } := by
    show (reindexOwnerToken _ _ _ _).token tokenId = _
    rw [reindexOwnerToken_token]
    exact Store.set_self _ _ _
  have hpass : passOn out self env moved w tokenId newOwner = .ok w := by
    have hlink : moved.registry = none := (reindexOwnerToken_settings _ _ _ _).2.2.trans hregistry
    unfold passOn
    rw [hlink]
    rfl
  refine ⟨moved, synced, ?_, ?_, ?_, approvedOn_eq hmoved, ?_⟩
  · simp only [step, transfer, getToken, bind_eq_ok, okOr_eq_ok, require_eq_ok, pure_eq_ok]
    exact ⟨record, hrecord, (), Or.inl rfl, w, hpass, rfl⟩
  · simp only [step, syncOwner, getToken, bind_eq_ok, okOr_eq_ok, requireAdmin_eq_ok, pure_eq_ok]
    exact ⟨_, ⟨(), ⟨admin, hsome, hauth⟩, record, hrecord, rfl⟩, rfl⟩
  · exact (transferred_eq hrecord newOwner).trans (transferred_eq hrecord newOwner).symm
  · rw [approvedOn_eq hsynced]

/-- **No reading of the log tells the approvals.** Whatever a reader makes of the events, for every token there is a run
    from deployment after which it is wrong about the token. -/
theorem approvals_not_logged (out : Outside ω) (self : Address) (w : ω)
    (reading : List Event → Store Bytes Address) (tokenId : Bytes) :
    ∃ ts, reading (eventLog out self (State.empty, w) ts) tokenId ≠
      approvedOn (run (step out self) (State.empty, w) ts).1 tokenId := by
  let env : Env := ⟨0, [⟨[]⟩], none⟩
  let root : Address := ⟨[]⟩
  let minted : TokenRecord := freshToken root none 0
  let start : List (Tx Call) := [⟨env, .initializeContract root⟩, ⟨env, .mint tokenId root none 0⟩,
    ⟨env, .approve tokenId root root⟩]
  let s₁ : State := { State.empty with admin := some root, contractVersion := some XlmNs.contractVersion }
  let s₂ : State := addOwnerToken { putToken s₁ tokenId minted with tokenIds := [tokenId] } root tokenId
  let s₃ : State := putToken s₂ tokenId { minted with approved := some root }
  have hinit : step out self (State.empty, w) ⟨env, .initializeContract root⟩ = .ok (s₁, w) := rfl
  have hmint : step out self (s₁, w) ⟨env, .mint tokenId root none 0⟩ = .ok (s₂, w) := rfl
  have happrove : step out self (s₂, w) ⟨env, .approve tokenId root root⟩ = .ok (s₃, w) := by
    simp only [step, approve, getToken, bind_eq_ok, okOr_eq_ok, require_eq_ok, pure_eq_ok]
    exact ⟨_, ⟨minted, Store.set_self _ _ _, (), rfl, rfl⟩, rfl⟩
  have hstart : run (step out self) (State.empty, w) start = (s₃, w) := by
    rw [run_cons, exec_ok hinit, run_cons, exec_ok hmint, run_cons, exec_ok happrove, run_nil]
  have hrecord : s₃.token tokenId = some { minted with approved := some root } := Store.set_self _ _ _
  have hadmin : ByAdmin env s₃ := ⟨root, rfl, Or.inl List.mem_cons_self⟩
  obtain ⟨s₄, s₅, htransfer, hsync, hevents, hcleared, hkept⟩ := moves_look_alike out self w hrecord rfl hadmin root
  by_contra hright
  push Not at hright
  have hread : ∀ t s', step out self (s₃, w) t = .ok (s', w) →
      reading (eventLog out self (State.empty, w) start ++ events s₃ t) tokenId = approvedOn s' tokenId := by
    intro t s' hok
    have h := hright (start ++ [t])
    rw [eventLog, published_append, run_append, hstart, published_cons_ok [] hok, run_cons, exec_ok hok, run_nil] at h
    rw [← List.append_nil (events s₃ t)]
    exact h
  -- the log is the same and the approval is not, so that one of the two readings is wrong
  have hnone := hread _ _ htransfer
  have hsome := hread _ _ hsync
  rw [hevents, hsome, hkept] at hnone
  cases hnone.trans hcleared

end XlmNs.Nft
