import XlmNs.Resolver.Forward
import XlmNs.Soroban.Machine

/-!
# `Resolver.Correctness.TextRecords` — text records stay within their bounds

Text records are written one at a time by `set_text_record` and several at a time by `batch_set`, which skips what
the other refuses. Both come down to one insertion with three guards (`TextBounded.insert`); the other calls carry
the text records over as they are. `Call.textRecords` is the table of what each call makes of them,
`text_records_bounded` the bounds in every reachable state and the frame of the calls that should leave them alone.
-/

namespace XlmNs.Resolver

open Soroban

variable {ω : Type} {out : Outside ω} {env : Env} {s s' : State} {w : ω} {name key value : Bytes}
variable {texts : StringMap} {record : ResolutionRecord}

/-! ## Bounds -/

/-- 1 to 64 bytes of `[a-z0-9._-]`. -/
def TextKey (key : Bytes) : Prop :=
  1 ≤ key.length ∧ key.length ≤ 64 ∧
    ∀ b ∈ key, (97 ≤ b ∧ b ≤ 122) ∨ (48 ≤ b ∧ b ≤ 57) ∨ b = 46 ∨ b = 95 ∨ b = 45

theorem isTextRecordKeyByte_iff (b : UInt8) :
    isTextRecordKeyByte b = true ↔ (97 ≤ b ∧ b ≤ 122) ∨ (48 ≤ b ∧ b ≤ 57) ∨ b = 46 ∨ b = 95 ∨ b = 45 := by
  simp only [isTextRecordKeyByte, isAsciiLowercase, isAsciiDigit, dot, hyphen, Bool.or_eq_true, Bool.and_eq_true,
    decide_eq_true_eq, beq_iff_eq]
  tauto

theorem validateTextRecordKey_eq_ok {u : Unit} : validateTextRecordKey key = .ok u ↔ TextKey key := by
  simp only [TextKey, ← isTextRecordKeyByte_iff, ← List.all_eq_true]
  unfold validateTextRecordKey
  split
  · rename_i hlength
    simp only [reduceCtorEq, false_iff]
    omega
  · rename_i hlength
    have hbounds : 1 ≤ key.length ∧ key.length ≤ 64 := by omega
    split
    · rename_i hbytes
      exact ⟨fun _ => ⟨hbounds.1, hbounds.2, hbytes⟩, fun _ => rfl⟩
    · rename_i hbytes
      simp only [reduceCtorEq, false_iff]
      exact fun h => hbytes h.2.2

/-- **Text records within bounds**: not too many, valid keys, no value too long. -/
structure TextBounded (texts : StringMap) : Prop where
  count : texts.keys.card ≤ maxTextRecords
  key   : ∀ k v, texts.lookup k = some v → TextKey k
  value : ∀ k v, texts.lookup k = some v → v.length ≤ maxTextRecordValueLength

theorem textBounded_empty : TextBounded ∅ := by
  constructor
  · simp
  · intro k v h
    simp at h
  · intro k v h
    simp at h

theorem keys_insert (texts : StringMap) (key value : Bytes) :
    (texts.insert key value).keys = insert key texts.keys := by
  ext k
  simp [Finmap.mem_keys, Finmap.mem_insert]

/-- **One insertion with the three guards keeps the bounds**; at the limit only a key that is there is written. -/
theorem TextBounded.insert (h : TextBounded texts) (hkey : TextKey key)
    (hvalue : value.length ≤ maxTextRecordValueLength) (hroom : ¬ TextRecordsFull texts key) :
    TextBounded (texts.insert key value) := by
  constructor
  · rw [keys_insert]
    -- an update at the limit leaves the number of keys as it is
    by_cases hmem : key ∈ texts.keys
    · rw [Finset.insert_eq_of_mem hmem]
      exact h.count
    · have hspace : texts.keys.card < maxTextRecords := by
        by_contra hfull
        exact hroom ⟨fun hk => hmem (Finmap.mem_keys.mpr hk), not_lt.mp hfull⟩
      rw [Finset.card_insert_of_notMem hmem]
      exact hspace
  · intro k v hk
    by_cases hsame : k = key
    · rw [hsame]
      exact hkey
    · rw [Finmap.lookup_insert_of_ne _ hsame] at hk
      exact h.key k v hk
  · intro k v hk
    by_cases hsame : k = key
    · subst hsame
      rw [Finmap.lookup_insert] at hk
      obtain rfl := Option.some.inj hk
      exact hvalue
    · rw [Finmap.lookup_insert_of_ne _ hsame] at hk
      exact h.value k v hk

/-! ## What each call makes of the text records -/

/-- The text records of each name. -/
def textRecords (s : State) : Store Bytes StringMap := s.forward.view (·.textRecords)

/-- One turn of the loop of `batch_set`. -/
def writeText (texts : StringMap) : BatchOp → StringMap
  | .setAddress _ => texts
  | .setText key value =>
      if validateTextRecordKey key ≠ .ok () ∨ maxTextRecordValueLength < value.length ∨
          TextRecordsFull texts key then texts
      else texts.insert key value

theorem writeText_applyOp (name : Bytes) (s : State) (record : ResolutionRecord) (applied : UInt32)
    (op : BatchOp) : (applyOp name (s, record, applied) op).2.1.textRecords = writeText record.textRecords op := by
  cases op with
  | setAddress address => rfl
  | setText key value =>
      -- an operation that fails one of its three checks is skipped
      by_cases hskip : validateTextRecordKey key ≠ .ok () ∨ maxTextRecordValueLength < value.length ∨
          TextRecordsFull record.textRecords key
      · have hop : applyOp name (s, record, applied) (.setText key value) = (s, record, applied) := if_pos hskip
        rw [hop, writeText, if_pos hskip]
      · have hop : applyOp name (s, record, applied) (.setText key value)
            = (s, { record with textRecords := record.textRecords.insert key value }, applied + 1) := if_neg hskip
        rw [hop, writeText, if_neg hskip]

/-- The loop of `batch_set` works on the text records alone. -/
theorem foldl_writeText (name : Bytes) (ops : List BatchOp) (s : State) (record : ResolutionRecord)
    (applied : UInt32) :
    (ops.foldl (applyOp name) (s, record, applied)).2.1.textRecords = ops.foldl writeText record.textRecords := by
  induction ops generalizing s record applied with
  | nil => rfl
  | cons op ops ih =>
      rw [List.foldl_cons, List.foldl_cons, ← writeText_applyOp name s record applied op]
      exact ih _ _ _

theorem TextBounded.write (h : TextBounded texts) (op : BatchOp) : TextBounded (writeText texts op) := by
  cases op with
  | setAddress address => exact h
  | setText key value =>
      rw [writeText]
      split
      · exact h
      · rename_i hguards
        rw [not_or, not_or, not_not, not_lt] at hguards
        exact h.insert (validateTextRecordKey_eq_ok.mp hguards.1) hguards.2.1 hguards.2.2

theorem TextBounded.batch (h : TextBounded texts) (ops : List BatchOp) :
    TextBounded (ops.foldl writeText texts) := by
  -- on the operations, which work on what the ones before them left
  induction ops generalizing texts with
  | nil => exact h
  | cons op ops ih => exact ih (h.write op)

/-- What a call makes of the text records. -/
def Call.textRecords (m : Store Bytes StringMap) : Call → Store Bytes StringMap
  | .setRecord name _ _ _             => m.set name ((m name).getD ∅)
  | .setTextRecord name _ key value _ => Function.update m name ((m name).map (fun texts => texts.insert key value))
  | .batchSet name _ ops _            => Function.update m name ((m name).map (fun texts => ops.foldl writeText texts))
  | .removeRecord name _              => m.remove name
  | _                                 => m

/-- **Every committed call does to the text records what `Call.textRecords` says.** -/
theorem step_textRecords {c : Call} (h : step out w s ⟨env, c⟩ = .ok s') :
    textRecords s' = c.textRecords (textRecords s) := by
  unfold textRecords
  rw [step_forward h]
  cases c with
  | setRecord name owner address nowUnix => exact Store.view_update _ _ _ _
  | setAddress name caller chain address nowUnix => exact Store.view_update_keep _ _ _ (fun _ => rfl)
  | setTextRecord name caller key value nowUnix => exact Store.view_update_map _ _ _ (fun _ => rfl)
  | removeRecord name caller => exact Store.view_update _ _ _ _
  | updateOwner name caller newOwner => exact Store.view_update_keep _ _ _ (fun _ => rfl)
  | transferRecordOwner name caller newOwner => exact Store.view_update_keep _ _ _ (fun _ => rfl)
  | batchSet name caller ops nowUnix =>
      exact Store.view_update_map _ _ _ (fun record => foldl_writeText name ops s record 0)
  | _ => rfl

/-! ## Every reachable state -/

/-- The text records of every name are within bounds. -/
def AllBounded (s : State) : Prop := ∀ name texts, textRecords s name = some texts → TextBounded texts

theorem allBounded_empty : AllBounded State.empty := by
  intro name texts h
  cases h

/-- The text records of one name are rewritten within bounds. -/
theorem AllBounded.update (hs : AllBounded s) {u : Option StringMap} (hu : ∀ texts, u = some texts → TextBounded texts)
    {n : Bytes} (h : Function.update (Resolver.textRecords s) name u n = some texts) : TextBounded texts := by
  by_cases hn : n = name
  · subst hn
    rw [Function.update_self] at h
    exact hu texts h
  · rw [Function.update_of_ne hn] at h
    exact hs n texts h

theorem setTextRecord_guards {caller : Address} {nowUnix : UInt64}
    (h : setTextRecord out env s w name caller key value nowUnix = .ok s') :
    TextKey key ∧ value.length ≤ maxTextRecordValueLength ∧
      ∀ texts, textRecords s name = some texts → ¬ TextRecordsFull texts key := by
  simp only [setTextRecord, bind_eq_ok, requireAuth_eq_ok, mapErr_eq_ok, require_eq_ok, getRecord, okOr_eq_ok,
    exists_const] at h
  obtain ⟨_, _, hkey, hvalue, record, hrecord, _, _, hroom, _⟩ := h
  refine ⟨validateTextRecordKey_eq_ok.mp hkey, hvalue, ?_⟩
  intro texts htexts
  obtain rfl := Option.some.inj ((Store.view_eq _ hrecord).symm.trans htexts)
  exact hroom

/-- **Every committed call keeps the text records within bounds.** -/
theorem preserves_allBounded (out : Outside ω) : Preserves (inWorlds (step out)) AllBounded := by
  rintro s ⟨w, env, c⟩ s' hs h n texts hn
  rw [step_textRecords h] at hn
  cases c with
  | setRecord name owner address nowUnix =>
      refine hs.update ?_ hn
      intro new hnew
      obtain rfl := Option.some.inj hnew
      cases hold : textRecords s name with
      | none => exact textBounded_empty
      | some old => exact hs name old hold
  | setTextRecord name caller key value nowUnix =>
      obtain ⟨hkey, hvalue, hroom⟩ := setTextRecord_guards h
      refine hs.update ?_ hn
      intro new hnew
      obtain ⟨old, hold, rfl⟩ := Option.map_eq_some_iff.mp hnew
      exact (hs name old hold).insert hkey hvalue (hroom old hold)
  | batchSet name caller ops nowUnix =>
      refine hs.update ?_ hn
      intro new hnew
      obtain ⟨old, hold, rfl⟩ := Option.map_eq_some_iff.mp hnew
      exact (hs name old hold).batch ops
  | removeRecord name caller => exact hs n texts (Store.remove_eq_some.mp hn).2
  | _ => exact hs n texts hn

/-! ## The calls that leave them alone -/

/-- The calls that should not touch text records: `set_record`, `set_address` and the changes of owner. -/
def Call.sparesTexts : Call → Bool
  | .setRecord .. | .setAddress .. | .updateOwner .. | .transferRecordOwner .. => true
  | _ => false

theorem spares_textRecords {c : Call} (hc : c.sparesTexts = true) (h : step out w s ⟨env, c⟩ = .ok s') {n : Bytes}
    (hrecord : s.forward n = some record) : textRecords s' n = some record.textRecords := by
  have hold : textRecords s n = some record.textRecords := Store.view_eq _ hrecord
  rw [step_textRecords h]
  cases c with
  | setRecord name owner address nowUnix =>
      show (Store.set _ name _) n = _
      by_cases hn : n = name
      · subst hn
        rw [Store.set_self, hold]
        rfl
      · rw [Store.set_ne _ _ hn, hold]
  | setAddress | updateOwner | transferRecordOwner => exact hold
  | _ => cases hc

/-- `set_record` leaves the addresses on other chains alone. -/
theorem setRecord_addresses {owner : Address} {address chain : Bytes} {nowUnix : UInt64}
    (h : step out w s ⟨env, .setRecord name owner address nowUnix⟩ = .ok s') (hchain : chain ≠ defaultChain)
    {n : Bytes} (hrecord : s.forward n = some record) :
    ∃ record', s'.forward n = some record' ∧ record'.addresses.lookup chain = record.addresses.lookup chain := by
  rw [step_forward h]
  show ∃ record', (s.forward.set name (freshRecord s name owner address nowUnix)) n = some record' ∧ _
  by_cases hn : n = name
  · subst hn
    refine ⟨_, Store.set_self _ _ _, ?_⟩
    show (Finmap.insert defaultChain address (((s.forward n).map ResolutionRecord.addresses).getD ∅)).lookup chain = _
    rw [Finmap.lookup_insert_of_ne _ hchain, hrecord]
    rfl
  · exact ⟨record, (Store.set_ne _ _ hn).trans hrecord, rfl⟩

/-- **Text records stay within their bounds.** After any calls by anyone, whatever the registry and the subdomain
    contract answer at each: every record has at most `MAX_TEXT_RECORDS` text records, each under a key of 1 to 64
    bytes of `[a-z0-9._-]` and of at most `MAX_TEXT_RECORD_VALUE_LENGTH` bytes. And `set_record`, `set_address` and
    the changes of owner leave the text records of every existing record as they are, `set_record` also its
    addresses on other chains. -/
theorem text_records_bounded (out : Outside ω) (ts : List (ω × Tx Call)) :
    let s := run (inWorlds (step out)) State.empty ts
    (∀ n record, s.forward n = some record →
      record.textRecords.keys.card ≤ maxTextRecords ∧
      ∀ key value, record.textRecords.lookup key = some value →
        TextKey key ∧ value.length ≤ maxTextRecordValueLength) ∧
    ∀ w env c s', step out w s ⟨env, c⟩ = .ok s' → ∀ n record, s.forward n = some record →
      (c.sparesTexts = true → ∃ record', s'.forward n = some record' ∧ record'.textRecords = record.textRecords) ∧
      ∀ name owner address nowUnix, c = .setRecord name owner address nowUnix →
        ∀ chain, chain ≠ defaultChain → ∃ record', s'.forward n = some record' ∧
          record'.addresses.lookup chain = record.addresses.lookup chain := by
  intro s
  have hs : AllBounded s := (preserves_allBounded out).run ts allBounded_empty
  refine ⟨?_, ?_⟩
  · intro n record hrecord
    have hbounded := hs n record.textRecords (Store.view_eq _ hrecord)
    exact ⟨hbounded.count, fun key value hkey => ⟨hbounded.key key value hkey, hbounded.value key value hkey⟩⟩
  · intro w env c s' h n record hrecord
    refine ⟨?_, ?_⟩
    · intro hc
      exact Option.map_eq_some_iff.mp (spares_textRecords hc h hrecord)
    · rintro name owner address nowUnix rfl chain hchain
      exact setRecord_addresses h hchain hrecord

end XlmNs.Resolver
