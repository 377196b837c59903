import XlmNs.Nft.Steps

/-!
# `Nft.Correctness.ExpiryCopies` — a token's expiry, stored twice

The record of a token holds the expiry that `mint` or `sync_expiry` was called with. The cached dates, which `metadata`
shows, hold the one that the registry reported at `mint` or `refresh_name_data`. A call that writes one copy leaves the
other: `Told` keeps what was pushed and what was reported, `traced_step` says that this is what is stored, and
`copiesAgree_step_iff` when a call keeps the copies equal.
-/

namespace XlmNs.Nft

open Soroban

variable {ω : Type} {out : Outside ω} {self : Address} {env : Env} {s s' : State} {w w' : ω}

/-- The expiries the records hold. -/
def expiries (s : State) : Store Bytes UInt64 := s.token.view (·.expiresAt)

/-- The expiries that `metadata` shows. -/
def shown (s : State) : Store Bytes UInt64 :=
  fun tokenId => (s.token tokenId).bind fun _ => (s.nameData tokenId).map (·.expiryDate)

/-- **The two copies agree**, for every token with cached dates. -/
def CopiesAgree (s : State) : Prop :=
  ∀ tokenId record data, s.token tokenId = some record → s.nameData tokenId = some data →
    data.expiryDate = record.expiresAt

theorem copiesAgree_iff : CopiesAgree s ↔ Store.Within (shown s) (expiries s) := by
  constructor
  · intro h tokenId expiry hshown
    obtain ⟨record, hrecord, hdata⟩ := Option.bind_eq_some_iff.mp hshown
    obtain ⟨data, hfound, rfl⟩ := Option.map_eq_some_iff.mp hdata
    rw [h tokenId record data hrecord hfound]
    exact Store.view_eq _ hrecord
  · intro h tokenId record data hrecord hdata
    have hshown : shown s tokenId = some data.expiryDate := by
      rw [shown, hrecord, Option.bind_some, hdata]
      rfl
    have hpushed : expiries s tokenId = some record.expiresAt := Store.view_eq _ hrecord
    exact Option.some.inj ((h tokenId _ hshown).symm.trans hpushed)

/-- **`metadata` goes by the cached dates.** -/
theorem metadata_shown {tokenId : Bytes} {nowUnix : UInt64} {data : TokenMetadata}
    (h : metadata s tokenId nowUnix = some data) :
    shown s tokenId = some data.expiryDate ∧ data.isExpired = decide (nowUnix > data.expiryDate) := by
  unfold metadata at h
  obtain ⟨record, hrecord, h⟩ := Option.bind_eq_some_iff.mp h
  obtain ⟨nameRecord, hname, h⟩ := Option.bind_eq_some_iff.mp h
  obtain rfl := Option.some.inj h
  refine ⟨?_, rfl⟩
  rw [shown, hrecord, Option.bind_some, hname]
  rfl

/-! ## What the contract is told -/

/-- The expiries of the tokens there are, as the registry reported them and as they were pushed. -/
structure Told where
  reported : Store Bytes UInt64
  pushed   : Store Bytes UInt64

/-- Before anything is said. -/
def Told.nothing : Told := ⟨fun _ => none, fun _ => none⟩

/-- What a call makes of the expiries pushed. -/
def Call.pushes (m : Store Bytes UInt64) : Call → Store Bytes UInt64
  | .mint tokenId _ _ expiresAt   => m.set tokenId expiresAt
  | .syncExpiry tokenId newExpiry => m.set tokenId newExpiry
  | .burn tokenId                 => m.remove tokenId
  | _                             => m

/-- What a call makes of the expiries reported. -/
def Call.reports (out : Outside ω) (now : UInt64) (link : Option Address) (w : ω) (m : Store Bytes UInt64) :
    Call → Store Bytes UInt64
  | .mint tokenId _ _ _      => Function.update m tokenId ((answer out now link w tokenId).map (·.expiresAt))
  | .refreshNameData tokenId => Function.update m tokenId ((answer out now link w tokenId).map (·.expiresAt))
  | .burn tokenId            => m.remove tokenId
  | _                        => m

/-- What is told after a call. -/
def Told.note (out : Outside ω) (now : UInt64) (link : Option Address) (w : ω) (told : Told) (c : Call) : Told :=
  ⟨c.reports out now link w told.reported, c.pushes told.pushed⟩

/-- **What is stored is what was told last.** Before a registry is configured, no dates are cached. -/
structure Traced (s : State) (told : Told) : Prop where
  reported : shown s = told.reported
  pushed   : expiries s = told.pushed
  unlinked : s.registry = none → ∀ tokenId, s.nameData tokenId = none

theorem traced_empty : Traced State.empty Told.nothing := by
  constructor
  · rfl
  · rfl
  · exact fun _ _ => rfl

/-! ## One step -/

theorem Effect.expiries {c : Call} (h : Effect env s s' c) : expiries s' = c.pushes (expiries s) := by
  cases h with
  | frame hcall htoken _ _ =>
      have hframe : c.pushes (Nft.expiries s) = Nft.expiries s := by
        cases c with
        | initializeContract | upgrade | setRegistry | refreshNameData => rfl
        | _ => cases hcall
      rw [hframe]
      exact congrArg (Store.view _) htoken
  | mint _ _ htoken _ _ => exact Store.view_of_set _ htoken rfl
  | burn _ _ htoken _ _ =>
      unfold Nft.expiries
      rw [htoken]
      exact Store.view_remove _ _ _
  | edit hrecord hedit htoken _ _ =>
      cases hedit with
      | approve _ | approveClear _ =>
          unfold Nft.expiries
          rw [htoken]
          exact Store.view_edit _ hrecord rfl
      | syncExpiry _ => exact Store.view_of_set _ htoken rfl
  | move hrecord hmove htoken _ _ =>
      unfold Nft.expiries
      rw [htoken]
      cases hmove with
      | transfer _ | transferFrom _ _ | syncOwner _ => exact Store.view_edit _ hrecord rfl

/-- A token is there iff its record shows an expiry. -/
theorem shown_eq (s : State) (tokenId : Bytes) :
    shown s tokenId = (expiries s tokenId).bind fun _ => (s.nameData tokenId).map (·.expiryDate) := by
  unfold shown expiries Store.view
  cases s.token tokenId <;> rfl

theorem expiries_of_token {tokenId : Bytes} (h : s.token tokenId ≠ none) : ∃ expiry, expiries s tokenId = some expiry := by
  obtain ⟨record, hrecord⟩ := Option.ne_none_iff_exists'.mp h
  exact ⟨record.expiresAt, Store.view_eq _ hrecord⟩

/-- No dates are cached before a registry is configured. -/
theorem step_unlinked {c : Call} (h : step out self (s, w) ⟨env, c⟩ = .ok (s', w'))
    (hnone : s.registry = none → ∀ tokenId, s.nameData tokenId = none) (hlink : s'.registry = none) (tokenId : Bytes) :
    s'.nameData tokenId = none := by
  have hbefore := step_linked h hlink
  rw [step_nameData h, hbefore]
  cases c <;> exact hnone hbefore tokenId

/-- What `metadata` shows of a token whose dates were just read. -/
theorem readDates_shown {tokenId : Bytes} {link : Option Address} {now : UInt64} {m : Store Bytes NameRecord}
    (h : (link = none ∧ m tokenId = none) ∨ ∃ entry, answer out now link w tokenId = some entry) :
    (readDates out now link w m tokenId tokenId).map (·.expiryDate)
      = (answer out now link w tokenId).map (·.expiresAt) := by
  rcases h with ⟨rfl, hnone⟩ | ⟨entry, hentry⟩
  · show (m tokenId).map _ = none
    rw [hnone]
    rfl
  · rw [readDates_answered hentry, Store.set_self, hentry]
    rfl

theorem step_shown {c : Call} (h : step out self (s, w) ⟨env, c⟩ = .ok (s', w'))
    (hnone : s.registry = none → ∀ tokenId, s.nameData tokenId = none) :
    shown s' = c.reports out env.timestamp s.registry w (shown s) := by
  have heffect := step_effect h
  funext j
  rw [shown_eq, heffect.expiries, step_nameData h]
  cases c with
  | mint tokenId owner uri expiresAt =>
      by_cases hj : j = tokenId
      · subst hj
        have hread := readDates_shown (m := s.nameData)
          ((mint_answered h).imp_left fun hlink => ⟨hlink, hnone hlink j⟩)
        simp only [Call.pushes, Call.nameData, Call.reports, Store.set_self, Option.bind_some, hread,
          Function.update_self]
      · simp only [Call.pushes, Call.nameData, Call.reports, Store.set_ne _ _ hj, readDates_ne hj,
          Function.update_of_ne hj, shown_eq]
  | refreshNameData tokenId =>
      by_cases hj : j = tokenId
      · subst hj
        obtain ⟨expiry, hexpiry⟩ := expiries_of_token (refresh_token h)
        have hread := readDates_shown (m := s.nameData) (Or.inr (refresh_answered h))
        simp only [Call.pushes, Call.nameData, Call.reports, hexpiry, Option.bind_some, hread, Function.update_self]
      · simp only [Call.pushes, Call.nameData, Call.reports, readDates_ne hj, Function.update_of_ne hj, shown_eq]
  | syncExpiry tokenId newExpiry =>
      by_cases hj : j = tokenId
      · subst hj
        obtain ⟨expiry, hexpiry⟩ := expiries_of_token ((target_accepted_iff rfl).mp ⟨_, h⟩).2
        simp only [Call.pushes, Call.nameData, Call.reports, Store.set_self, shown_eq, hexpiry, Option.bind_some]
      · simp only [Call.pushes, Call.nameData, Call.reports, Store.set_ne _ _ hj, shown_eq]
  | burn tokenId =>
      by_cases hj : j = tokenId
      · subst hj
        simp only [Call.pushes, Call.reports, Store.remove_self, Option.bind_none]
      · simp only [Call.pushes, Call.nameData, Call.reports, Store.remove_ne _ hj, shown_eq]
  | _ => exact (shown_eq s j).symm

/-- **One committed call.** -/
theorem traced_step {c : Call} {told : Told} (h : step out self (s, w) ⟨env, c⟩ = .ok (s', w'))
    (htraced : Traced s told) : Traced s' (told.note out env.timestamp s.registry w c) := by
  constructor
  · rw [step_shown h htraced.unlinked, htraced.reported]
    rfl
  · rw [(step_effect h).expiries, htraced.pushed]
    rfl
  · exact step_unlinked h htraced.unlinked

/-! ## When the copies stay equal -/

/-- **The call writes into one copy what the other holds.** -/
def KeepsCopies (out : Outside ω) (now : UInt64) (s : State) (w : ω) : Call → Prop
  | .mint tokenId _ _ expiresAt =>
      ∀ entry, answer out now s.registry w tokenId = some entry → entry.expiresAt = expiresAt
  | .refreshNameData tokenId =>
      ∀ entry, answer out now s.registry w tokenId = some entry → expiries s tokenId = some entry.expiresAt
  | .syncExpiry tokenId newExpiry => ∀ expiry, shown s tokenId = some expiry → expiry = newExpiry
  | _ => True

theorem reported_iff {link : Option Address} {now : UInt64} {tokenId : Bytes} {P : UInt64 → Prop} :
    (∀ expiry, (answer out now link w tokenId).map (·.expiresAt) = some expiry → P expiry) ↔
      ∀ entry, answer out now link w tokenId = some entry → P entry.expiresAt := by
  constructor
  · intro h entry hentry
    apply h
    rw [hentry]
    rfl
  · intro h expiry hexpiry
    obtain ⟨entry, hentry, rfl⟩ := Option.map_eq_some_iff.mp hexpiry
    exact h entry hentry

/-- **One committed call, exactly.** -/
theorem copiesAgree_step_iff {c : Call} (h : step out self (s, w) ⟨env, c⟩ = .ok (s', w'))
    (hnone : s.registry = none → ∀ tokenId, s.nameData tokenId = none) (hagree : CopiesAgree s) :
    CopiesAgree s' ↔ KeepsCopies out env.timestamp s w c := by
  have hwithin := copiesAgree_iff.mp hagree
  rw [copiesAgree_iff, step_shown h hnone, (step_effect h).expiries]
  cases c with
  | mint tokenId owner uri expiresAt =>
      refine (hwithin.update_iff tokenId _ _).trans (reported_iff.trans ?_)
      exact forall₂_congr fun entry _ => ⟨fun heq => (Option.some.inj heq).symm, fun heq => congrArg some heq.symm⟩
  | refreshNameData tokenId =>
      have hkeep : expiries s = Function.update (expiries s) tokenId (expiries s tokenId) :=
        (Function.update_eq_self _ _).symm
      show Store.Within (Function.update (shown s) tokenId _) (expiries s) ↔ _
      rw [hkeep]
      exact (hwithin.update_iff tokenId _ _).trans reported_iff
  | syncExpiry tokenId newExpiry =>
      have hkeep : shown s = Function.update (shown s) tokenId (shown s tokenId) :=
        (Function.update_eq_self _ _).symm
      show Store.Within (shown s) (Function.update (expiries s) tokenId (some newExpiry)) ↔ _
      rw [hkeep]
      refine (hwithin.update_iff tokenId _ _).trans ?_
      exact forall₂_congr fun expiry _ => ⟨fun heq => (Option.some.inj heq).symm, fun heq => congrArg some heq.symm⟩
  | burn tokenId =>
      refine (hwithin.update_iff tokenId none none).trans (iff_of_true ?_ trivial)
      intro _ hsome
      cases hsome
  | _ => exact iff_of_true hwithin trivial

end XlmNs.Nft
