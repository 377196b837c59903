import XlmNs.Nft.Steps
import XlmNs.Soroban.Machine

/-!
# `Nft.Correctness.Approvals` — does an approval outlive its approver?

An approval on a token should be one its present owner gave, by `approve`, after acquiring the token
(`ApprovalsGranted`). A history variable keeps the standing grants: an approval the owner signed stands until the
token changes hands, disappears, or is no longer approved for anyone.

Every way to move a token withdraws the approval except `sync_owner`, the registry's, which rewrites the owner alone;
and `approve` does not ask for the signature of the owner it is told. `approvals_granted_iff`: the law holds along a
run iff every accepted `approve` is signed by its caller, or names the address approved already, and every accepted
`sync_owner` finds the token unapproved or owned by the new owner (`RespectsGrants`).
-/

namespace XlmNs.Nft

open Soroban

variable {ω : Type} {out : Outside ω} {self : Address} {env : Env} {s s' : State} {w w' : ω}

/-! ## The history: standing grants -/

/-- The address approved on a token. -/
def approvedOn (s : State) (tokenId : Bytes) : Option Address := (s.token tokenId).bind (·.approved)

theorem approvedOn_eq {tokenId : Bytes} {record : TokenRecord} (h : s.token tokenId = some record) :
    approvedOn s tokenId = record.approved := by
  rw [approvedOn, h]
  rfl

/-- The approval each token's present owner gave since acquiring it. -/
abbrev Grants := Bytes → Option Address

/-- Nothing was granted yet. -/
def noGrants : Grants := fun _ => none

/-- A grant stands while the token keeps its owner and is approved. -/
def standing (s s' : State) (g : Grants) : Grants := fun tokenId =>
  if ownerOf s' tokenId = ownerOf s tokenId ∧ approvedOn s' tokenId ≠ none then g tokenId else none

/-- How a committed transaction enters into the history. -/
def note (sw : State × ω) (t : Tx Call) (sw' : State × ω) (g : Grants) : Grants :=
  match t.call with
  | .approve tokenId caller approved =>
      if t.env.Authorises caller then Function.update g tokenId (some approved) else g
  | _ => standing sw.1 sw'.1 g

/-- The contract with the history next to it. -/
def watched (out : Outside ω) (self : Address) :
    (State × ω) × Grants → Tx Call → Except (Fault NftError) ((State × ω) × Grants) :=
  withHistory (step out self) note

/-- The history is only watched: the contract runs as it would without it. -/
theorem run_watched (swg : (State × ω) × Grants) (ts : List (Tx Call)) :
    (run (watched out self) swg ts).1 = run (step out self) swg.1 ts :=
  run_withHistory swg ts

/-! ## The law -/

/-- Every approval is a standing grant. -/
def Granted (s : State) (g : Grants) : Prop := ∀ tokenId x, approvedOn s tokenId = some x → g tokenId = some x

/-- **Approvals are the present owner's**, after one transaction. -/
def ApprovalsGranted (out : Outside ω) (self : Address) (swg : (State × ω) × Grants) (t : Tx Call) : Prop :=
  Granted (exec (watched out self) swg t).1.1 (exec (watched out self) swg t).2

/-- What a call must do for the approvals to stay the owners'. -/
def Respects (env : Env) (s : State) : Call → Prop
  | .approve tokenId caller approved => env.Authorises caller ∨ approvedOn s tokenId = some approved
  | .syncOwner tokenId newOwner => approvedOn s tokenId = none ∨ ownerOf s tokenId = some newOwner
  | _ => True

/-- An accepted call respects the grants. -/
def RespectsGrants (out : Outside ω) (self : Address) (swg : (State × ω) × Grants) (t : Tx Call) : Prop :=
  (∃ sw', step out self swg.1 t = .ok sw') → Respects t.env swg.1.1 t.call

/-! ## One step -/

/-- The approvals and the grants are the same. -/
def Faithful (s : State) (g : Grants) : Prop := ∀ tokenId, g tokenId = approvedOn s tokenId

theorem faithful_empty : Faithful State.empty noGrants := by
  intro tokenId
  rfl

theorem Faithful.granted {g : Grants} (h : Faithful s g) : Granted s g := by
  intro tokenId x hx
  rw [h]
  exact hx

/-- Every approval there is was there before, on a token of the same owner. -/
def Carried (s s' : State) : Prop := ∀ tokenId x, approvedOn s' tokenId = some x →
  ownerOf s' tokenId = ownerOf s tokenId ∧ approvedOn s tokenId = some x

/-- **Standing grants cover what is carried over.** -/
theorem granted_standing_iff {g : Grants} (h : Faithful s g) :
    Granted s' (standing s s' g) ↔ Carried s s' := by
  constructor
  · intro hgranted tokenId x hx
    have hstands := hgranted tokenId x hx
    unfold standing at hstands
    split at hstands
    · rename_i hkept
      exact ⟨hkept.1, (h tokenId).symm.trans hstands⟩
    · cases hstands
  · intro hcarried tokenId x hx
    obtain ⟨howner, hbefore⟩ := hcarried tokenId x hx
    have hsome : approvedOn s' tokenId ≠ none := by
      rw [hx]
      exact Option.some_ne_none x
    rw [standing, if_pos ⟨howner, hsome⟩, h]
    exact hbefore

/-- Where the grants cover the approvals, they are the approvals. -/
theorem faithful_standing {g : Grants} (hgranted : Granted s' (standing s s' g)) :
    Faithful s' (standing s s' g) := by
  intro tokenId
  cases hx : approvedOn s' tokenId with
  | some x => exact hgranted tokenId x hx
  | none =>
      apply if_neg
      rintro ⟨_, hsome⟩
      exact hsome hx

theorem Carried.of_eq (h : s'.token = s.token) : Carried s s' := by
  intro tokenId x hx
  rw [approvedOn, h] at hx
  exact ⟨by rw [ownerOf, ownerOf, h], hx⟩

/-- Only one token is written: what is carried over is decided there. -/
theorem carried_set_iff {id : Bytes} {record : TokenRecord} (htoken : s'.token = s.token.set id record) :
    Carried s s' ↔ ∀ x, record.approved = some x →
      some record.owner = ownerOf s id ∧ approvedOn s id = some x := by
  have hself : s'.token id = some record := by rw [htoken, Store.set_self]
  have howner : ownerOf s' id = some record.owner := by rw [ownerOf, hself]; rfl
  constructor
  · intro hcarried x hx
    rw [← howner]
    exact hcarried id x ((approvedOn_eq hself).trans hx)
  · intro hone tokenId x hx
    by_cases hid : tokenId = id
    · subst hid
      rw [howner]
      exact hone x ((approvedOn_eq hself).symm.trans hx)
    · have hsame : s'.token tokenId = s.token tokenId := by rw [htoken, Store.set_ne _ _ hid]
      rw [approvedOn, hsame] at hx
      exact ⟨by rw [ownerOf, ownerOf, hsame], hx⟩

theorem Carried.remove {id : Bytes} (htoken : s'.token = s.token.remove id) : Carried s s' := by
  intro tokenId x hx
  by_cases hid : tokenId = id
  · subst hid
    rw [approvedOn, htoken, Store.remove_self] at hx
    cases hx
  · have hsame : s'.token tokenId = s.token tokenId := by rw [htoken, Store.remove_ne _ hid]
    rw [approvedOn, hsame] at hx
    exact ⟨by rw [ownerOf, ownerOf, hsame], hx⟩

/-- **Every call but `approve` carries approvals over iff it respects them.** -/
theorem Effect.carried_iff {c : Call} (h : Effect env s s' c) (hc : ∀ id caller x, c ≠ .approve id caller x) :
    Carried s s' ↔ Respects env s c := by
  cases h with
  | frame hcall htoken _ _ =>
      apply iff_of_true (Carried.of_eq htoken)
      cases c with
      | initializeContract | upgrade | setRegistry | refreshNameData => trivial
      | _ => cases hcall
  | mint _ _ htoken _ _ =>
      refine iff_of_true ((carried_set_iff htoken).mpr ?_) trivial
      intro x hx
      cases hx
  | burn _ _ htoken _ _ => exact iff_of_true (Carried.remove htoken) trivial
  | edit hrecord hedit htoken _ _ =>
      cases hedit with
      | approve => exact absurd rfl (hc _ _ _)
      | approveClear =>
          refine iff_of_true ((carried_set_iff htoken).mpr ?_) trivial
          intro x hx
          cases hx
      | syncExpiry =>
          refine iff_of_true ((carried_set_iff htoken).mpr ?_) trivial
          intro x hx
          refine ⟨?_, (approvedOn_eq hrecord).trans hx⟩
          rw [ownerOf, hrecord]
          rfl
  | @move _ id record _ hrecord hmove htoken _ _ =>
      cases hmove with
      | transfer | transferFrom =>
          refine iff_of_true ((carried_set_iff htoken).mpr ?_) trivial
          intro x hx
          cases hx
      | @syncOwner id newOwner _ =>
          rw [carried_set_iff htoken]
          have happroved : approvedOn s id = record.approved := approvedOn_eq hrecord
          show _ ↔ approvedOn s id = none ∨ ownerOf s id = some newOwner
          rw [happroved]
          constructor
          · intro hcarried
            cases hx : record.approved with
            | none => exact Or.inl rfl
            | some x => exact Or.inr (hcarried x hx).1.symm
          · rintro (hnone | howner) x hx
            · cases hnone.symm.trans hx
            · exact ⟨howner.symm, hx⟩

/-- `approve` writes what it says, and no other token. -/
theorem approvedOn_approve {id : Bytes} {caller approved : Address}
    (h : Effect env s s' (.approve id caller approved)) :
    approvedOn s' = Function.update (approvedOn s) id (some approved) := by
  cases h with
  | frame hcall => cases hcall
  | move _ hmove => cases hmove
  | edit hrecord hedit htoken _ _ =>
      cases hedit with
      | approve _ =>
          funext tokenId
          by_cases hid : tokenId = id
          · subst hid
            rw [Function.update_self, approvedOn, htoken, Store.set_self]
            rfl
          · rw [Function.update_of_ne hid, approvedOn, htoken, Store.set_ne _ _ hid]
            rfl

/-- An approval noted as a grant, or given before: the grants are again the approvals. -/
theorem faithful_approve {id : Bytes} {caller x : Address} {g : Grants} (h : Faithful s g)
    (heffect : Effect env s s' (.approve id caller x)) (hrespects : Respects env s (.approve id caller x)) :
    Faithful s' (note (s, w) ⟨env, .approve id caller x⟩ (s', w') g) := by
  have happroved := approvedOn_approve heffect
  intro tokenId
  rw [happroved]
  by_cases hsigned : env.Authorises caller
  · have hnote : note (s, w) ⟨env, .approve id caller x⟩ (s', w') g = Function.update g id (some x) :=
      if_pos hsigned
    rw [hnote, funext h]
  · have hnote : note (s, w) ⟨env, .approve id caller x⟩ (s', w') g = g := if_neg hsigned
    have hbefore : approvedOn s id = some x := hrespects.resolve_left hsigned
    rw [hnote, ← hbefore, Function.update_eq_self]
    exact h tokenId

/-- An approval that stands was signed, or given before. -/
theorem respects_approve {id : Bytes} {caller x : Address} {g : Grants} (h : Faithful s g)
    (heffect : Effect env s s' (.approve id caller x))
    (hgranted : Granted s' (note (s, w) ⟨env, .approve id caller x⟩ (s', w') g)) :
    Respects env s (.approve id caller x) := by
  by_cases hsigned : env.Authorises caller
  · exact Or.inl hsigned
  · have hnote : note (s, w) ⟨env, .approve id caller x⟩ (s', w') g = g := if_neg hsigned
    have hafter : approvedOn s' id = some x := by rw [approvedOn_approve heffect, Function.update_self]
    have hstands := hgranted id x hafter
    rw [hnote] at hstands
    exact Or.inr ((h id).symm.trans hstands)

/-- **One committed step, exactly**: the approvals stay granted iff the call respects the grants, and then the
    grants are again the approvals. -/
theorem granted_note_iff {c : Call} {g : Grants} (h : Faithful s g)
    (hstep : step out self (s, w) ⟨env, c⟩ = .ok (s', w')) :
    (Granted s' (note (s, w) ⟨env, c⟩ (s', w') g) ↔ Respects env s c) ∧
      (Granted s' (note (s, w) ⟨env, c⟩ (s', w') g) → Faithful s' (note (s, w) ⟨env, c⟩ (s', w') g)) := by
  have heffect : Effect env s s' c := step_effect hstep
  cases c with
  | approve id caller x =>
      refine ⟨⟨respects_approve h heffect, fun hr => (faithful_approve h heffect hr).granted⟩, ?_⟩
      intro hgranted
      exact faithful_approve h heffect (respects_approve h heffect hgranted)
  | _ =>
      have hcarried := heffect.carried_iff (fun _ _ _ hc => (by cases hc))
      exact ⟨(granted_standing_iff h).trans hcarried, faithful_standing⟩

/-- **One transaction, exactly**, whether it commits or not. -/
theorem approvalsGranted_iff {swg : (State × ω) × Grants} {t : Tx Call} (hfaithful : Faithful swg.1.1 swg.2) :
    (ApprovalsGranted out self swg t ↔ RespectsGrants out self swg t) ∧
      (ApprovalsGranted out self swg t →
        Faithful (exec (watched out self) swg t).1.1 (exec (watched out self) swg t).2) := by
  obtain ⟨⟨s, w⟩, g⟩ := swg
  obtain ⟨env, c⟩ := t
  have hcases := exec_cases (watched out self) ((s, w), g) ⟨env, c⟩
  unfold ApprovalsGranted RespectsGrants
  generalize exec (watched out self) ((s, w), g) ⟨env, c⟩ = swg' at hcases ⊢
  obtain ⟨⟨s', w'⟩, g'⟩ := swg'
  rcases hcases with hok | ⟨⟨e, herr⟩, hsame⟩
  · obtain ⟨hstep, rfl⟩ := withHistory_eq_ok.mp hok
    obtain ⟨hiff, hnext⟩ := granted_note_iff hfaithful hstep
    refine ⟨hiff.trans ⟨fun hr _ => hr, fun hr => hr ⟨_, hstep⟩⟩, hnext⟩
  · cases hsame
    refine ⟨iff_of_true hfaithful.granted ?_, fun _ => hfaithful⟩
    rintro ⟨sw', hok⟩
    rw [watched, withHistory, hok] at herr
    cases herr

/-! ## Whole runs -/

/-- **Approvals are the present owner's throughout a run iff every accepted call of it respects the grants.** Anyone
    may call anything, in any order: holders, and the admin who mints, burns and keeps tokens in step. -/
theorem approvals_granted_iff (out : Outside ω) (self : Address) (w : ω) (ts : List (Tx Call)) :
    Along (watched out self) (ApprovalsGranted out self) ((State.empty, w), noGrants) ts ↔
      Along (watched out self) (RespectsGrants out self) ((State.empty, w), noGrants) ts :=
  along_iff (I := fun swg => Faithful swg.1.1 swg.2) (P := ApprovalsGranted out self)
    (Q := RespectsGrants out self) (fun _ _ h => (approvalsGranted_iff h).1) (fun _ _ h => (approvalsGranted_iff h).2)
    faithful_empty

/-! ## An approval that survives a sale -/

namespace StaleApproval

open Cast

/-- The registry mints Alice's token when she registers the name. -/
def founding : List (Tx Call) :=
  [⟨⟨1000, [], some registry⟩, .initializeContract registry⟩,
   ⟨⟨1000, [alice], some registry⟩, .mint aliceXlm alice none 31537000⟩]

/-- Alice approves Mallory. -/
def lend : Tx Call := ⟨⟨2000, [alice], none⟩, .approve aliceXlm alice mallory⟩

/-- Alice transfers the name to Bob in the registry, which passes it on. -/
def sell : Tx Call := ⟨⟨3000, [alice], some registry⟩, .syncOwner aliceXlm bob⟩

/-- **The law fails on the code**: Alice approves Mallory and sells the name to Bob in the registry. Mallory is
    still approved on Bob's token. -/
theorem approval_survives_sale :
    ¬ Along (watched nothingOutside nft) (ApprovalsGranted nothingOutside nft)
      ((State.empty, ()), noGrants) (founding ++ [lend, sell]) := by
  intro h
  have hsell : ApprovalsGranted nothingOutside nft (run (watched nothingOutside nft)
      ((State.empty, ()), noGrants) (founding ++ [lend])) sell := along_split (founding ++ [lend]) [] h
  unfold ApprovalsGranted at hsell
  generalize hswg : exec (watched nothingOutside nft) (run (watched nothingOutside nft)
    ((State.empty, ()), noGrants) (founding ++ [lend])) sell = swg at hsell
  have happroved : approvedOn swg.1.1 aliceXlm = some mallory := by rw [← hswg]; decide +kernel
  have hnothing : swg.2 aliceXlm = none := by rw [← hswg]; decide +kernel
  cases hnothing.symm.trans (hsell aliceXlm mallory happroved)

end StaleApproval

end XlmNs.Nft
