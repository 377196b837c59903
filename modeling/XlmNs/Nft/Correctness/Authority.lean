import XlmNs.Nft.Steps
import XlmNs.Soroban.Machine

/-!
# `Nft.Correctness.Authority` — who may move a token

A token's owner or approval should change, and the token disappear, only in an invocation signed by its owner, by
the address approved on it, or by the admin (`TokenAuthority`). `approve`, `approve_clear`, `transfer` and
`transfer_from` compare the caller they are told with the token but never ask for that caller's signature.
`token_authority` proves the policy along every run in which those callers did sign; one unsigned `transfer` call
breaks it.
-/

namespace XlmNs.Nft

open Soroban

variable {ω : Type} {out : Outside ω} {self : Address} {env : Env} {s s' : State} {w : ω}
variable {tokenId : Bytes} {record : TokenRecord}

/-! ## The policy -/

/-- Signed by the owner of the token, by the address approved on it, or by the admin. -/
def Authority (env : Env) (s : State) (record : TokenRecord) : Prop :=
  env.Authorises record.owner ∨ (∃ a, record.approved = some a ∧ env.Authorises a) ∨ ByAdmin env s

/-- The token is gone, or its owner or approval is no longer what it was. -/
def Disturbed (s' : State) (tokenId : Bytes) (record : TokenRecord) : Prop :=
  ∀ record', s'.token tokenId = some record' →
    record'.owner ≠ record.owner ∨ record'.approved ≠ record.approved

/-- **Token authority of one invocation.** -/
def TokenAuthority (out : Outside ω) (self : Address) (sw : State × ω) (t : Tx Call) : Prop :=
  ∀ tokenId record, sw.1.token tokenId = some record →
    Disturbed (exec (step out self) sw t).1 tokenId record → Authority t.env sw.1 record

/-- The caller on whose unchecked word a call acts. -/
def Call.onWordOf : Call → Option Address
  | .approve _ caller _ => some caller
  | .approveClear _ caller => some caller
  | .transfer _ caller _ => some caller
  | .transferFrom spender _ _ _ => some spender
  | _ => none

/-- An accepted call on somebody's word carries that somebody's signature. -/
def WordSigned (out : Outside ω) (self : Address) (sw : State × ω) (t : Tx Call) : Prop :=
  ∀ caller, t.call.onWordOf = some caller → (∃ sw', step out self sw t = .ok sw') →
    t.env.Authorises caller

/-! ## One step -/

/-- Another token than the one written is not disturbed. -/
theorem not_disturbed_same (hrecord : s'.token tokenId = some record) :
    ¬ Disturbed s' tokenId record := by
  intro hdist
  rcases hdist record hrecord with h | h
  · exact h rfl
  · exact h rfl

theorem not_disturbed_set {id : Bytes} {record' : TokenRecord} (hrecord : s.token tokenId = some record)
    (hne : tokenId ≠ id) (htoken : s'.token = s.token.set id record') :
    ¬ Disturbed s' tokenId record := by
  refine not_disturbed_same ?_
  rw [htoken, Store.set_ne _ _ hne]
  exact hrecord

/-- **A change made on a signed word carries the token's authority.** -/
theorem Change.authority {c : Call} (hc : Change env s s' c)
    (hword : ∀ caller, c.onWordOf = some caller → env.Authorises caller)
    (hrecord : s.token tokenId = some record) (hdist : Disturbed s' tokenId record) :
    Authority env s record := by
  cases hc with
  | frame htoken =>
      rw [← htoken] at hrecord
      exact absurd hdist (not_disturbed_same hrecord)
  | mint hadmin _ _ => exact Or.inr (Or.inr hadmin)
  | admin hadmin => exact Or.inr (Or.inr hadmin)
  | @approval _ id caller _ record' hrecord' howner hcall htoken =>
      by_cases hid : tokenId = id
      · subst hid
        obtain rfl := Option.some.inj (hrecord.symm.trans hrecord')
        have hsigned : env.Authorises caller := by
          rcases hcall with rfl | ⟨_, rfl⟩
          · exact hword caller rfl
          · exact hword caller rfl
        exact Or.inl (howner ▸ hsigned)
      · exact absurd hdist (not_disturbed_set hrecord hid htoken)
  | @move _ id caller newOwner record' hrecord' hcaller hcall htoken =>
      by_cases hid : tokenId = id
      · subst hid
        obtain rfl := Option.some.inj (hrecord.symm.trans hrecord')
        have hsigned : env.Authorises caller := by
          rcases hcall with rfl | rfl
          · exact hword caller rfl
          · exact hword caller rfl
        rcases hcaller with howner | happroved
        · exact Or.inl (howner ▸ hsigned)
        · exact Or.inr (Or.inl ⟨caller, happroved, hsigned⟩)
      · exact absurd hdist (not_disturbed_set hrecord hid htoken)

/-- **One step.** An invocation on a signed word, or on nobody's, has token authority. -/
theorem tokenAuthority_of_wordSigned {t : Tx Call} (hword : WordSigned out self (s, w) t) :
    TokenAuthority out self (s, w) t := by
  intro tokenId record hrecord hdist
  rcases exec_cases (step out self) (s, w) t with hok | ⟨_, hsame⟩
  · have hsigned : ∀ caller, t.call.onWordOf = some caller → t.env.Authorises caller := by
      intro caller hcaller
      exact hword caller hcaller ⟨_, hok⟩
    exact (step_change hok).authority hsigned hrecord hdist
  · rw [hsame] at hdist
    exact absurd hdist (not_disturbed_same hrecord)

/-! ## Whole runs -/

/-- **Tokens change on their owner's, approved address's or admin's authority along every run in which the
    callers of `approve`, `approve_clear`, `transfer` and `transfer_from` signed.** -/
theorem token_authority {ts : List (Tx Call)}
    (h : Along (step out self) (WordSigned out self) (State.empty, w) ts) :
    Along (step out self) (TokenAuthority out self) (State.empty, w) ts :=
  h.imp fun _ _ => tokenAuthority_of_wordSigned

/-! ## A transfer nobody signed -/

namespace UnsignedTransfer

open Cast

/-- The registry is the admin. -/
def setUp : Tx Call := ⟨⟨1000, [registry], none⟩, .initializeContract registry⟩

/-- It mints Alice's token. -/
def mintAlice : Tx Call := ⟨⟨1000, [registry], none⟩, .mint aliceXlm alice none 31537000⟩

/-- Mallory moves it to himself, and Alice signs nothing. -/
def take : Tx Call := ⟨⟨2000, [mallory], none⟩, .transfer aliceXlm alice mallory⟩

/-- Alice approves him. -/
def lend : Tx Call := ⟨⟨2000, [alice], none⟩, .approve aliceXlm alice mallory⟩

/-- **Token authority fails on the code**: Mallory transfers Alice's token to himself by naming Alice as the
    caller. -/
theorem unsigned_transfer_takes_token :
    ¬ Along (step nothingOutside nft) (TokenAuthority nothingOutside nft) (State.empty, ())
      [setUp, mintAlice, take] := by
  intro h
  have htake := along_split [setUp, mintAlice] [] h
  generalize hs : run (step nothingOutside nft) (State.empty, ()) [setUp, mintAlice] = sw at htake
  have hbefore : sw.1.token aliceXlm = some (freshToken alice none 31537000) := by
    rw [← hs]; decide +kernel
  have hafter : (exec (step nothingOutside nft) sw take).1.token aliceXlm
      = some (freshToken mallory none 31537000) := by
    rw [← hs]; decide +kernel
  have hadmin : sw.1.admin = some registry := by rw [← hs]; decide +kernel
  have hdist : Disturbed (exec (step nothingOutside nft) sw take).1 aliceXlm
      (freshToken alice none 31537000) := by
    intro record' hrecord'
    obtain rfl := Option.some.inj (hafter.symm.trans hrecord')
    exact Or.inl (by decide)
  rcases htake aliceXlm _ hbefore hdist with hauth | ⟨_, happroved, _⟩ | ⟨admin, hadmin', hauth⟩
  · exact absurd hauth (by decide)
  · cases happroved
  · obtain rfl := Option.some.inj (hadmin.symm.trans hadmin')
    exact absurd hauth (by decide)

/-- Alice's own approval carries her authority. -/
theorem signed_approval_authorised :
    Along (step nothingOutside nft) (TokenAuthority nothingOutside nft) (State.empty, ())
      [setUp, mintAlice, lend] := by
  refine token_authority ⟨fun _ h => (by cases h), fun _ h => (by cases h), fun caller h _ => ?_, trivial⟩
  obtain rfl : alice = caller := Option.some.inj h
  decide

end UnsignedTransfer

end XlmNs.Nft
