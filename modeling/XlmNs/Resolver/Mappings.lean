import XlmNs.Resolver.Steps
import XlmNs.Soroban.Machine

/-!
# `Resolver.Mappings` — what a committed resolver invocation did to the mappings between addresses and names

A name's forward record has a default-chain address (`addressOf`); the reverse and the primary mapping lead from
an address back to one name. Several names may have the same address, and then share its two slots.

## Contents
- **Relinking.** `Relinks q s s'` is an edit of one name's address, with all it does to the slots: the addresses
  in `q.gone` lose theirs, the final address gets its reverse slot. Such edits compose (`Relinks.trans`), so a
  batch is one edit.
- **Every committed invocation** is an edit, a `set_primary_name`, a clean-up, or leaves addresses and mappings
  alone (`Effect`, `step_effect`).
- **Links.** In every reachable state a mapping leads to a name that has the address (`Linked`).
- **Runs.** `stepIn`: the resolver while the rest of the world moves on between its transactions.
-/

namespace XlmNs.Resolver

open Soroban

variable {ω : Type} {out : Outside ω} {env : Env} {s s' s'' : State} {w : ω}
variable {name address : Bytes}

/-- The default-chain address of a name. -/
def addressOf (s : State) (name : Bytes) : Option Bytes :=
  (s.forward name).bind ResolutionRecord.defaultAddress

/-- The address of a name is its record's. -/
theorem addressOf_eq {record : ResolutionRecord} (h : s.forward name = some record) :
    addressOf s name = record.defaultAddress := by
  rw [addressOf, h]
  rfl

theorem addressOf_congr (h : s'.forward name = s.forward name) : addressOf s' name = addressOf s name := by
  rw [addressOf, addressOf, h]

@[simp] theorem addressOf_putRecord (s : State) (name : Bytes) (record : ResolutionRecord) :
    addressOf (putRecord s name record) name = record.defaultAddress :=
  addressOf_eq (Store.set_self s.forward name record)

/-- The later of two writes of a record stands. -/
theorem putRecord_putRecord (s : State) (name : Bytes) (record record' : ResolutionRecord) :
    putRecord (putRecord s name record) name record' = putRecord s name record' := by
  have hset : (s.forward.set name record).set name record' = s.forward.set name record' :=
    Function.update_idem _ _ _
  rw [putRecord, putRecord, hset]
  rfl

/-! ## Relinking a name -/

/-- An edit of a name's default-chain address: the addresses it unlinks on the way, and the one the name ends up
    with. -/
structure Relink where
  name  : Bytes
  gone  : List Bytes
  final : Option Bytes

/-- **What an edit of one name's address does.** -/
structure Relinks (q : Relink) (s s' : State) : Prop where
  /-- other records stay -/
  forward : ∀ n, n ≠ q.name → s'.forward n = s.forward n
  address : addressOf s' q.name = q.final
  /-- an address the name had is unlinked or kept -/
  stays   : ∀ a, addressOf s q.name = some a → a ∉ q.gone → q.final = some a
  primary : ∀ a, s'.primary a = if a ∈ q.gone then none else s.primary a
  /-- a reverse slot leads to the edited name, is emptied, or is as it was -/
  reverse : ∀ a, (q.final = some a ∧ s'.reverse a = some q.name) ∨
    (a ∈ q.gone ∧ q.final ≠ some a ∧ s'.reverse a = none) ∨
    (a ∉ q.gone ∧ s'.reverse a = s.reverse a ∧ (q.final = some a → addressOf s q.name = some a))

/-- No edit. -/
theorem Relinks.refl (s : State) (name : Bytes) : Relinks ⟨name, [], addressOf s name⟩ s s where
  forward _ _ := rfl
  address     := rfl
  stays _ h _ := h
  primary _   := rfl
  reverse _   := Or.inr (Or.inr ⟨List.not_mem_nil, rfl, id⟩)

/-- **Two edits of one name are one.** -/
theorem Relinks.trans {gone₁ gone₂ : List Bytes} {final₁ final₂ : Option Bytes}
    (h₁ : Relinks ⟨name, gone₁, final₁⟩ s s') (h₂ : Relinks ⟨name, gone₂, final₂⟩ s' s'') :
    Relinks ⟨name, gone₁ ++ gone₂, final₂⟩ s s'' where
  forward n hn := (h₂.forward n hn).trans (h₁.forward n hn)
  address      := h₂.address
  stays a ha hnot := by
    rw [List.mem_append, not_or] at hnot
    have hmid : addressOf s' name = some a := h₁.address.trans (h₁.stays a ha hnot.1)
    exact h₂.stays a hmid hnot.2
  primary a := by
    rw [h₂.primary a, h₁.primary a]
    by_cases h2 : a ∈ gone₂
    · rw [if_pos h2, if_pos (List.mem_append_right _ h2)]
    · by_cases h1 : a ∈ gone₁
      · rw [if_neg h2, if_pos h1, if_pos (List.mem_append_left _ h1)]
      · rw [if_neg h2, if_neg h1, if_neg (by simp [h1, h2])]
  reverse a := by
    rcases h₂.reverse a with hlinked | ⟨hgone, hfinal, hnone⟩ | ⟨hnot, hsame, hfinal⟩
    · exact Or.inl hlinked
    · exact Or.inr (Or.inl ⟨List.mem_append_right _ hgone, hfinal, hnone⟩)
    · -- the second edit leaves the slot alone: what the first did to it stands
      have hmid : ∀ f, final₂ = some a → addressOf s' name = f → f = some a := by
        intro f hf haddr
        rw [← haddr]
        exact hfinal hf
      rcases h₁.reverse a with ⟨hf, hlinked⟩ | ⟨hgone, hf, hnone⟩ | ⟨hnot₁, hsame₁, hf⟩
      · have hkept : final₂ = some a := h₂.stays a (h₁.address.trans hf) hnot
        exact Or.inl ⟨hkept, hsame.trans hlinked⟩
      · refine Or.inr (Or.inl ⟨List.mem_append_left _ hgone, ?_, hsame.trans hnone⟩)
        intro hf₂
        exact hf (hmid final₁ hf₂ h₁.address)
      · refine Or.inr (Or.inr ⟨?_, hsame.trans hsame₁, ?_⟩)
        · rw [List.mem_append, not_or]
          exact ⟨hnot₁, hnot⟩
        · intro hf₂
          exact hf (hmid final₁ hf₂ h₁.address)

/-! ## The edits the entrypoints make -/

/-- The mappings of the old address are gone, unless it is the new one. -/
structure Unlinked (old : Option Bytes) (address : Bytes) (s s' : State) : Prop where
  forward : s'.forward = s.forward
  primary : ∀ a, s'.primary a = if a ∈ replaced old address then none else s.primary a
  reverse : ∀ a, s'.reverse a = if a ∈ replaced old address then none else s.reverse a

theorem Unlinked.none (address : Bytes) (s : State) : Unlinked none address s s :=
  ⟨rfl, fun _ => rfl, fun _ => rfl⟩

/-- What the clean-up before a new address does. -/
theorem unlinked_unlinkOld (s : State) (record : ResolutionRecord) (address : Bytes) :
    Unlinked record.defaultAddress address s (unlinkOld s record address) := by
  unfold unlinkOld
  split
  · rename_i old hold
    by_cases hne : old = address
    · have hnone : replaced record.defaultAddress address = [] := by simp [replaced, hold, hne]
      rw [if_neg (not_not.mpr hne)]
      constructor <;> simp [hnone]
    · have hone : replaced record.defaultAddress address = [old] := by simp [replaced, hold, hne]
      rw [if_pos hne]
      constructor
      case forward => rfl
      case primary =>
        intro a
        show s.primary.remove old a = _
        simp only [hone, Store.remove_apply, List.mem_singleton]
      case reverse =>
        intro a
        show s.reverse.remove old a = _
        simp only [hone, Store.remove_apply, List.mem_singleton]
  · rename_i hold
    rw [hold]
    exact Unlinked.none address s

/-- The address replaced is the old one, and not the new one. -/
theorem mem_replaced {old : Option Bytes} {a : Bytes} :
    a ∈ replaced old address ↔ old = some a ∧ a ≠ address := by
  simp [replaced]

/-- **Linking a name to an address**: the old one is unlinked, the reverse slot of the new one leads to it. -/
theorem Relinks.link {s₁ : State} {old : Option Bytes} {record : ResolutionRecord}
    (hold : addressOf s name = old) (h : Unlinked old address s s₁)
    (hrecord : record.defaultAddress = some address) :
    Relinks ⟨name, replaced old address, some address⟩ s (setReverse (putRecord s₁ name record) address name)
    where
  forward n hn := by
    show s₁.forward.set name record n = _
    rw [Store.set_ne _ _ hn, h.forward]
  address := (addressOf_putRecord s₁ name record).trans hrecord
  stays a ha hnot := by
    rw [hold] at ha
    by_contra hne
    exact hnot (mem_replaced.mpr ⟨ha, fun h => hne (congrArg some h.symm)⟩)
  primary := h.primary
  reverse a := by
    show (_ ∧ s₁.reverse.set address name a = _) ∨ (_ ∧ _ ∧ s₁.reverse.set address name a = _) ∨
      (_ ∧ s₁.reverse.set address name a = _ ∧ _)
    by_cases hnew : a = address
    · subst hnew
      exact Or.inl ⟨rfl, Store.set_self _ _ _⟩
    · have hfinal : (some address : Option Bytes) ≠ some a := fun h => hnew (Option.some.inj h).symm
      rw [Store.set_ne _ _ hnew, h.reverse a]
      by_cases hgone : a ∈ replaced old address
      · exact Or.inr (Or.inl ⟨hgone, hfinal, if_pos hgone⟩)
      · exact Or.inr (Or.inr ⟨hgone, if_neg hgone, fun h => absurd h hfinal⟩)

/-- Writing the record of a name again with the same default-chain address. -/
theorem Relinks.again {record record' : ResolutionRecord}
    (hrecord : record'.defaultAddress = record.defaultAddress) :
    Relinks ⟨name, [], record.defaultAddress⟩ (putRecord s name record) (putRecord s name record') where
  forward _ hn := (Store.set_ne _ _ hn).trans (Store.set_ne _ _ hn).symm
  address      := (addressOf_putRecord s name record').trans hrecord
  stays _ ha _ := (addressOf_putRecord s name record).symm.trans ha
  primary _    := rfl
  reverse _    := Or.inr (Or.inr ⟨List.not_mem_nil, rfl, (addressOf_putRecord s name record).trans⟩)

/-- **Removing a record** unlinks its address. -/
theorem Relinks.remove {old : Option Bytes} (hold : addressOf s name = old)
    (hforward : s'.forward = s.forward.remove name)
    (hprimary : ∀ a, s'.primary a = if a ∈ old.toList then none else s.primary a)
    (hreverse : ∀ a, s'.reverse a = if a ∈ old.toList then none else s.reverse a) :
    Relinks ⟨name, old.toList, none⟩ s s' where
  forward n hn := by rw [hforward, Store.remove_ne _ hn]
  address      := by rw [addressOf, hforward, Store.remove_self]; rfl
  stays a ha hnot := by
    rw [hold] at ha
    exact absurd (Option.mem_toList.mpr ha) hnot
  primary := hprimary
  reverse a := by
    have ha := hreverse a
    by_cases hgone : a ∈ old.toList
    · rw [if_pos hgone] at ha
      exact Or.inr (Or.inl ⟨hgone, fun h => (by cases h), ha⟩)
    · rw [if_neg hgone] at ha
      exact Or.inr (Or.inr ⟨hgone, ha, fun h => (by cases h)⟩)

/-- The default-chain address a batch leaves a name with. -/
def finalAddress : Option Bytes → List BatchOp → Option Bytes
  | old, []                       => old
  | _, .setAddress address :: ops => finalAddress (some address) ops
  | old, .setText _ _ :: ops      => finalAddress old ops

/-- A text operation is skipped or writes the one text record. -/
theorem applyOp_setText (name : Bytes) (s : State) (record : ResolutionRecord) (applied : UInt32)
    (key value : Bytes) :
    applyOp name (s, record, applied) (.setText key value) = (s, record, applied) ∨
    applyOp name (s, record, applied) (.setText key value)
      = (s, { record with textRecords := record.textRecords.insert key value }, applied + 1) := by
  unfold applyOp
  dsimp only
  split
  · exact Or.inl rfl
  · exact Or.inr rfl

/-- **Loop rule of a batch.** What each operation keeps of the storage and the record passed along, the batch keeps. -/
theorem batch_rule {I : State → ResolutionRecord → Prop} (name : Bytes)
    (haddress : ∀ s record address, I s record →
      I (Resolver.setReverse (Resolver.unlinkOld s record address) address name)
        { record with addresses := record.addresses.insert defaultChain address })
    (htext : ∀ s (record : ResolutionRecord) key value, I s record →
      I s { record with textRecords := record.textRecords.insert key value })
    (ops : List BatchOp) (s : State) (record : ResolutionRecord) (applied : UInt32) (h : I s record) :
    I (ops.foldl (applyOp name) (s, record, applied)).1 (ops.foldl (applyOp name) (s, record, applied)).2.1 := by
  induction ops generalizing s record applied with
  | nil => exact h
  | cons op ops ih =>
      rw [List.foldl_cons]
      cases op with
      | setAddress address => exact ih _ _ _ (haddress s record address h)
      | setText key value =>
          rcases applyOp_setText name s record applied key value with hop | hop
          · rw [hop]
            exact ih s record applied h
          · rw [hop]
            exact ih s _ _ (htext s record key value h)

/-- **A batch is one edit**: the addresses it replaces on the way go, the last one stays. -/
theorem Relinks.batch (name : Bytes) (ops : List BatchOp) (s : State) (record : ResolutionRecord)
    (applied : UInt32) :
    Relinks ⟨name, (batchSlots record.defaultAddress ops).1, finalAddress record.defaultAddress ops⟩
      (putRecord s name record)
      (putRecord (ops.foldl (applyOp name) (s, record, applied)).1 name
        (ops.foldl (applyOp name) (s, record, applied)).2.1) := by
  induction ops generalizing s record applied with
  | nil =>
      have h := Relinks.refl (putRecord s name record) name
      rwa [addressOf_putRecord] at h
  | cons op ops ih =>
      cases op with
      | setAddress address =>
          let record' : ResolutionRecord :=
            { record with addresses := record.addresses.insert defaultChain address }
          let s₁ := Resolver.setReverse (Resolver.unlinkOld s record address) address name
          have hrecord' : record'.defaultAddress = some address :=
            defaultAddress_insert record.addresses record address
          have hunlinked := unlinked_unlinkOld s record address
          have hlink : Relinks ⟨name, replaced record.defaultAddress address, some address⟩
              (putRecord s name record) (putRecord s₁ name record') := by
            have hput : Unlinked record.defaultAddress address (putRecord s name record)
                (putRecord (Resolver.unlinkOld s record address) name record) :=
              ⟨congrArg (Store.set · name record) hunlinked.forward, hunlinked.primary, hunlinked.reverse⟩
            have h := Relinks.link (addressOf_putRecord s name record) hput hrecord'
            rwa [putRecord_putRecord] at h
          have hrest := ih s₁ record' (applied + 1)
          rw [hrecord'] at hrest
          exact hlink.trans hrest
      | setText key value =>
          rw [List.foldl_cons]
          rcases applyOp_setText name s record applied key value with hop | hop
          · rw [hop]
            exact ih s record applied
          · -- a text record changes nothing an edit is about
            rw [hop]
            let record' : ResolutionRecord :=
              { record with textRecords := record.textRecords.insert key value }
            have hsame : record'.defaultAddress = record.defaultAddress := rfl
            have hrest := ih s record' (applied + 1)
            rw [hsame] at hrest
            exact (Relinks.again hsame).trans hrest

/-- The edit a call makes. -/
def Call.relink (s : State) : Call → Option Relink
  | .setRecord name _ address _ =>
      some ⟨name, replaced (addressOf s name) address, some address⟩
  | .setAddress name _ chain address _ =>
      if chain = defaultChain then some ⟨name, replaced (addressOf s name) address, some address⟩ else none
  | .removeRecord name _ => some ⟨name, (addressOf s name).toList, none⟩
  | .batchSet name _ ops _ =>
      some ⟨name, (batchSlots (addressOf s name) ops).1, finalAddress (addressOf s name) ops⟩
  | _ => none

/-! ## Every committed invocation -/

/-- The calls that drop outdated mappings. -/
def Call.isCleanup : Call → Bool
  | .clearReverseRecord .. | .reverse .. | .batchReverse .. => true
  | _ => false

/-- **What a committed invocation did to addresses and mappings.** -/
inductive Effect (s s' : State) : Call → Prop
  /-- administration, text records, owners, flags, addresses of other chains -/
  | quiet {c : Call} (hcall : c.relink s = none) (haddress : ∀ n, addressOf s' n = addressOf s n)
      (hreverse : s'.reverse = s.reverse) (hprimary : s'.primary = s.primary) : Effect s s' c
  /-- the default-chain address of a name is edited -/
  | relink {c : Call} {q : Relink} (hcall : c.relink s = some q) (h : Relinks q s s') : Effect s s' c
  /-- a primary name is set -/
  | setPrimary {address : Bytes} {caller : Address} {name : Bytes} (haddress : addressOf s name = some address)
      (hforward : s'.forward = s.forward) (hreverse : s'.reverse = s.reverse)
      (hprimary : s'.primary = s.primary.set address name) :
      Effect s s' (.setPrimaryName address caller name)
  /-- mappings are dropped -/
  | cleanup {c : Call} (hcall : c.isCleanup = true) (hforward : s'.forward = s.forward)
      (hreverse : ∀ a n, s'.reverse a = some n → s.reverse a = some n)
      (hprimary : ∀ a n, s'.primary a = some n → s.primary a = some n) : Effect s s' c

/-- Rewriting a record without its default-chain address is quiet. -/
theorem Effect.of_put {c : Call} {record record' : ResolutionRecord} (hcall : c.relink s = none)
    (hrecord : s.forward name = some record) (hsame : record'.defaultAddress = record.defaultAddress) :
    Effect s (putRecord s name record') c := by
  refine .quiet hcall ?_ rfl rfl
  intro n
  by_cases hn : n = name
  · subst hn
    rw [addressOf_putRecord, addressOf_eq hrecord, hsame]
  · exact addressOf_congr (Store.set_ne _ _ hn)

/-- What `set_record` does to the mappings. -/
theorem setRecord_effect {owner : Address} {nowUnix : UInt64}
    (h : setRecord out env s w name owner address nowUnix = .ok s') :
    Effect s s' (.setRecord name owner address nowUnix) := by
  simp only [setRecord, bind_eq_ok, requireAuth_eq_ok, mapErr_eq_ok, require_eq_ok, pure_eq_ok,
    exists_const] at h
  obtain ⟨_, _, _, _, _, _, _, rfl⟩ := h
  refine .relink rfl (Relinks.link rfl ?_ (by simp [ResolutionRecord.defaultAddress]))
  cases hrec : s.forward name with
  | none =>
      rw [addressOf, hrec]
      exact Unlinked.none address s
  | some existing =>
      rw [addressOf_eq hrec]
      exact unlinked_unlinkOld s existing address

/-- What `set_address` does to them. -/
theorem setAddress_effect {caller : Address} {chain : Bytes} {nowUnix : UInt64}
    (h : setAddress out env s w name caller chain address nowUnix = .ok s') :
    Effect s s' (.setAddress name caller chain address nowUnix) := by
  simp only [setAddress, bind_eq_ok, requireAuth_eq_ok, getRecord, okOr_eq_ok, pure_eq_ok,
    exists_const] at h
  obtain ⟨_, record, hrec, _, _, rfl⟩ := h
  by_cases hchain : chain = defaultChain
  · subst hchain
    rw [if_pos rfl]
    let record' : ResolutionRecord :=
      { record with addresses := record.addresses.insert defaultChain address, updatedAt := nowUnix }
    have hrecord' : record'.defaultAddress = some address :=
      defaultAddress_insert record.addresses record address
    have hlink := Relinks.link (addressOf_eq hrec) (unlinked_unlinkOld s record address) hrecord'
    refine .relink ?_ hlink
    rw [Call.relink, if_pos rfl, addressOf_eq hrec]
  · rw [if_neg hchain]
    refine .of_put (if_neg hchain) hrec ?_
    show (record.addresses.insert chain address).lookup defaultChain = _
    rw [Finmap.lookup_insert_of_ne _ (Ne.symm hchain)]
    rfl

/-- What `remove_record` does to them. -/
theorem removeRecord_effect {caller : Address} (h : removeRecord out env s w name caller = .ok s') :
    Effect s s' (.removeRecord name caller) := by
  simp only [removeRecord, bind_eq_ok, requireAuth_eq_ok, getRecord, okOr_eq_ok, pure_eq_ok,
    exists_const] at h
  obtain ⟨_, record, hrec, _, _, rfl⟩ := h
  refine .relink rfl ?_
  rw [addressOf_eq hrec]
  cases hold : record.defaultAddress with
  | none => exact Relinks.remove ((addressOf_eq hrec).trans hold) rfl (fun _ => rfl) (fun _ => rfl)
  | some stellarAddr =>
      refine Relinks.remove ((addressOf_eq hrec).trans hold) rfl ?_ ?_
      · intro a
        show s.primary.remove stellarAddr a = _
        simp only [Store.remove_apply, Option.toList_some, List.mem_singleton]
      · intro a
        show s.reverse.remove stellarAddr a = _
        simp only [Store.remove_apply, Option.toList_some, List.mem_singleton]

/-- What `batch_set` does to them. -/
theorem batchSet_effect {caller : Address} {ops : List BatchOp} {nowUnix : UInt64} {applied : UInt32}
    (h : batchSet out env s w name caller ops nowUnix = .ok (s', applied)) :
    Effect s s' (.batchSet name caller ops nowUnix) := by
  simp only [batchSet, bind_eq_ok, mapErr_eq_ok, requireAuth_eq_ok, require_eq_ok, getRecord,
    okOr_eq_ok, pure_eq_ok, Prod.mk.injEq, exists_const] at h
  obtain ⟨_, _, _, _, record, hrec, _, _, rfl, _⟩ := h
  have hbatch := Relinks.batch name ops s record 0
  have hsame : putRecord s name record = s := by
    have hset : s.forward.set name record = s.forward := by
      rw [Store.set, ← hrec]
      exact Function.update_eq_self name s.forward
    rw [putRecord, hset]
  rw [hsame] at hbatch
  generalize ops.foldl (applyOp name) (s, record, 0) = r at hbatch ⊢
  have hfinal : r.2.1.defaultAddress = finalAddress record.defaultAddress ops :=
    (addressOf_putRecord r.1 name r.2.1).symm.trans hbatch.address
  have hstamp : Relinks ⟨name, [], r.2.1.defaultAddress⟩ (putRecord r.1 name r.2.1)
      (putRecord r.1 name { r.2.1 with updatedAt := nowUnix }) := Relinks.again rfl
  rw [hfinal] at hstamp
  have h := hbatch.trans hstamp
  rw [List.append_nil, ← addressOf_eq hrec] at h
  exact .relink rfl h

/-! ### Clean-ups -/

/-- A clean-up drops mappings and adds none. -/
structure Drops (s s' : State) : Prop where
  forward : s'.forward = s.forward
  reverse : ∀ a n, s'.reverse a = some n → s.reverse a = some n
  primary : ∀ a n, s'.primary a = some n → s.primary a = some n

theorem Drops.refl (s : State) : Drops s s := ⟨rfl, fun _ _ h => h, fun _ _ h => h⟩

/-- What drops in two steps drops. -/
theorem Drops.trans (h₁ : Drops s s') (h₂ : Drops s' s'') : Drops s s'' where
  forward     := h₂.forward.trans h₁.forward
  reverse a n := fun h => h₁.reverse a n (h₂.reverse a n h)
  primary a n := fun h => h₁.primary a n (h₂.primary a n h)

/-- A clean-up drops mappings and makes none. -/
theorem drops_cleanup (s : State) (address name : Bytes) :
    Drops s (cleanupStaleReverse s address name) where
  forward := rfl
  reverse a n h := by
    simp only [cleanupStaleReverse] at h
    split at h
    · exact (Store.remove_eq_some.mp h).2
    · exact h
  primary a n h := by
    simp only [cleanupStaleReverse] at h
    split at h
    · exact (Store.remove_eq_some.mp h).2
    · exact h

/-- A lookup through one mapping does the same. -/
theorem drops_reverseThrough (out : Outside ω) (env : Env) (s : State) (w : ω)
    (mapping : Store Bytes Bytes) (address : Bytes) :
    Drops s (reverseThrough out env s w mapping address).1 := by
  unfold reverseThrough
  split
  · exact Drops.refl s
  · split
    · exact Drops.refl s
    · exact drops_cleanup s _ _

/-- A lookup does. -/
theorem drops_reverse (out : Outside ω) (env : Env) (s : State) (w : ω) (address : Bytes) :
    Drops s (reverse out env s w address).1 := by
  have hfirst := drops_reverseThrough out env s w s.primary address
  unfold reverse
  split
  · rename_i s₁ name h
    rw [h] at hfirst
    exact hfirst
  · rename_i s₁ h
    rw [h] at hfirst
    exact hfirst.trans (drops_reverseThrough out env s₁ w s₁.reverse address)

/-- Several do. -/
theorem drops_batchReverse (out : Outside ω) (env : Env) (s : State) (w : ω) (addresses : List Bytes) :
    Drops s (batchReverse out env s w addresses).1 := by
  induction addresses generalizing s with
  | nil => exact Drops.refl s
  | cons address addresses ih => exact (drops_reverse out env s w address).trans (ih _)

/-- Dropping is an effect of its kind. -/
theorem Drops.effect {c : Call} (h : Drops s s') (hcall : c.isCleanup = true) : Effect s s' c :=
  .cleanup hcall h.forward h.reverse h.primary

/-- **Every committed invocation is an `Effect`.** -/
theorem step_effect {c : Call} (h : step out w s ⟨env, c⟩ = .ok s') : Effect s s' c := by
  cases c with
  | setRecord name owner address nowUnix => exact setRecord_effect h
  | setAddress name caller chain address nowUnix => exact setAddress_effect h
  | removeRecord name caller => exact removeRecord_effect h
  | batchSet name caller ops nowUnix =>
      obtain ⟨⟨s₁, applied⟩, hbatch, hs₁⟩ := bind_eq_ok.mp h
      obtain rfl := pure_eq_ok.mp hs₁
      exact batchSet_effect hbatch
  | setPrimaryName address caller name =>
      simp only [step, setPrimaryName, bind_eq_ok, requireAuth_eq_ok, require_eq_ok, getRecord,
        okOr_eq_ok, pure_eq_ok, exists_const] at h
      obtain ⟨_, record, hrec, _, _, haddress, rfl⟩ := h
      exact .setPrimary ((addressOf_eq hrec).trans haddress) rfl rfl rfl
  | setTextRecord name caller key value nowUnix =>
      simp only [step, setTextRecord, bind_eq_ok, requireAuth_eq_ok, mapErr_eq_ok, require_eq_ok, getRecord,
        okOr_eq_ok, pure_eq_ok, exists_const] at h
      obtain ⟨_, _, _, _, record, hrec, _, _, _, rfl⟩ := h
      exact .of_put rfl hrec rfl
  | updateOwner name caller newOwner =>
      simp only [step, updateOwner, bind_eq_ok, requireAuth_eq_ok, getRecord, okOr_eq_ok, pure_eq_ok,
        exists_const] at h
      obtain ⟨_, record, hrec, _, _, rfl⟩ := h
      exact .of_put rfl hrec rfl
  | transferRecordOwner name caller newOwner =>
      simp only [step, transferRecordOwner, bind_eq_ok, requireAuth_eq_ok, getRecord, okOr_eq_ok,
        require_eq_ok, pure_eq_ok, exists_const] at h
      obtain ⟨_, record, hrec, _, rfl⟩ := h
      exact .of_put rfl hrec rfl
  | setWildcardResolution name caller enabled nowUnix =>
      simp only [step, setWildcardResolution, bind_eq_ok, pure_eq_ok] at h
      obtain ⟨_, _, _, _, _, _, rfl⟩ := h
      exact .quiet rfl (fun _ => rfl) rfl rfl
  | initializeContract registry admin =>
      simp only [step, initializeContract, bind_eq_ok, pure_eq_ok] at h
      obtain ⟨_, _, rfl⟩ := h
      exact .quiet rfl (fun _ => rfl) rfl rfl
  | setSubdomainContract subdomainContract =>
      simp only [step, setSubdomainContract, bind_eq_ok, pure_eq_ok] at h
      obtain ⟨_, _, _, _, rfl⟩ := h
      exact .quiet rfl (fun _ => rfl) rfl rfl
  | upgrade migrationData =>
      simp only [step, upgrade, upgradeStoring_eq_ok] at h
      obtain ⟨_, rfl⟩ := h
      exact .quiet rfl (fun _ => rfl) rfl rfl
  | clearReverseRecord name previousOwner =>
      simp only [step, clearReverseRecord, bind_eq_ok, pure_eq_ok] at h
      obtain ⟨_, _, _, _, rfl⟩ := h
      exact (drops_cleanup s _ name).effect rfl
  | reverse address =>
      obtain rfl := pure_eq_ok.mp h
      exact (drops_reverse out env s w address).effect rfl
  | batchReverse addresses =>
      obtain rfl := pure_eq_ok.mp h
      exact (drops_batchReverse out env s w addresses).effect rfl

/-- A call that edits did relink its name. -/
theorem Effect.relinks {c : Call} {q : Relink} (h : Effect s s' c) (hq : c.relink s = some q) :
    Relinks q s s' := by
  cases h with
  | relink hcall h =>
      obtain rfl := Option.some.inj (hcall.symm.trans hq)
      exact h
  | quiet hcall => cases hcall.symm.trans hq
  | setPrimary => cases hq
  | cleanup hcall =>
      cases c with
      | clearReverseRecord | reverse | batchReverse => cases hq
      | _ => cases hcall

/-! ## Links -/

/-- **Every mapping leads to a name that has the address.** -/
structure Linked (s : State) : Prop where
  reverse : ∀ a n, s.reverse a = some n → addressOf s n = some a
  primary : ∀ a n, s.primary a = some n → addressOf s n = some a

/-- There are no mappings at the start. -/
theorem linked_empty : Linked State.empty := by
  constructor
  · intro a n h
    cases h
  · intro a n h
    cases h

/-- An edit keeps mappings linked. -/
theorem Relinks.linked {q : Relink} (h : Relinks q s s') (hs : Linked s) : Linked s' := by
  -- an address no edit unlinks is still the address of the name
  have hkept : ∀ a n, addressOf s n = some a → a ∉ q.gone → addressOf s' n = some a := by
    intro a n ha hnot
    by_cases hn : n = q.name
    · subst hn
      exact h.address.trans (h.stays a ha hnot)
    · exact (addressOf_congr (h.forward n hn)).trans ha
  constructor
  · intro a n hrev
    rcases h.reverse a with ⟨hfinal, hlinked⟩ | ⟨_, _, hnone⟩ | ⟨hnot, hsame, _⟩
    · obtain rfl : q.name = n := Option.some.inj (hlinked.symm.trans hrev)
      exact h.address.trans hfinal
    · cases hnone.symm.trans hrev
    · exact hkept a n (hs.reverse a n (hsame.symm.trans hrev)) hnot
  · intro a n hprim
    rw [h.primary a] at hprim
    split at hprim
    · cases hprim
    · rename_i hnot
      exact hkept a n (hs.primary a n hprim) hnot

/-- **Every committed invocation keeps the links.** -/
theorem Effect.linked {c : Call} (h : Effect s s' c) (hs : Linked s) : Linked s' := by
  cases h with
  | quiet _ haddress hreverse hprimary =>
      constructor
      · intro a n hrev
        rw [haddress]
        exact hs.reverse a n (hreverse ▸ hrev)
      · intro a n hprim
        rw [haddress]
        exact hs.primary a n (hprimary ▸ hprim)
  | relink _ h => exact h.linked hs
  | setPrimary haddress hforward hreverse hprimary =>
      have hsame : ∀ n, addressOf s' n = addressOf s n := fun n => addressOf_congr (congrFun hforward n)
      constructor
      · intro a n hrev
        rw [hsame]
        exact hs.reverse a n (hreverse ▸ hrev)
      · intro a n hprim
        rw [hprimary] at hprim
        rw [hsame]
        rcases Store.set_eq_some.mp hprim with ⟨rfl, rfl⟩ | ⟨_, hprim⟩
        · exact haddress
        · exact hs.primary a n hprim
  | cleanup _ hforward hreverse hprimary =>
      have hsame : ∀ n, addressOf s' n = addressOf s n := fun n => addressOf_congr (congrFun hforward n)
      constructor
      · intro a n hrev
        rw [hsame]
        exact hs.reverse a n (hreverse a n hrev)
      · intro a n hprim
        rw [hsame]
        exact hs.primary a n (hprimary a n hprim)

/-! ## Runs -/

/-- A transaction of the resolver, and what the rest of the world is when it runs. -/
structure Invocation (ω : Type) where
  world : ω
  tx    : Tx Call

/-- The resolver while the rest of the world moves on as it likes. -/
def stepIn (out : Outside ω) (s : State) (i : Invocation ω) : Result State := step out i.world s i.tx

/-- Every call does. -/
theorem preserves_linked (out : Outside ω) : Preserves (stepIn out) Linked := by
  rintro s ⟨w, env, c⟩ s' hs h
  exact (step_effect h).linked hs

end XlmNs.Resolver
