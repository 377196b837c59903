import XlmNs.Resolver.Mappings
import XlmNs.Resolver.Resolution
import XlmNs.Soroban.Machine

/-!
# `Resolver.Correctness.Batches` — a batch is its operations one after another

`batch_set` edits a record in memory while it deletes and writes the mappings at once; `set_address` and
`set_text_record` read the record and write it back each time. The two are kept together by one fact: at any time the
stored record of the single calls is the record in memory, up to its `updated_at` (`batch_invariant`).
-/

namespace XlmNs.Resolver

open Soroban

variable {ω : Type} {out : Outside ω} {env : Env} {s : State} {w : ω} {name : Bytes} {caller : Address}
variable {record : ResolutionRecord} {nowUnix : UInt64}

/-- The single call an operation stands for. -/
def BatchOp.single (name : Bytes) (caller : Address) (nowUnix : UInt64) : BatchOp → Call
  | .setAddress address => .setAddress name caller defaultChain address nowUnix
  | .setText key value  => .setTextRecord name caller key value nowUnix

/-- The operations as transactions of their own. -/
def singles (env : Env) (name : Bytes) (caller : Address) (nowUnix : UInt64) (ops : List BatchOp) : List (Tx Call) :=
  ops.map (fun op => ⟨env, op.single name caller nowUnix⟩)

/-- The caller signs, and may write the name. -/
structure MayWrite (out : Outside ω) (env : Env) (s : State) (w : ω) (name : Bytes) (caller : Address)
    (nowUnix : UInt64) (record : ResolutionRecord) : Prop where
  signed : env.Authorises caller
  owner  : assertOwner out s w name record caller nowUnix = .ok ()

/-! ## Single calls on an edited record -/

/-- A record as it is, written at another time. -/
def ResolutionRecord.stamped (record : ResolutionRecord) (time : UInt64) : ResolutionRecord :=
  { record with updatedAt := time }

theorem putRecord_self (h : s.forward name = some record) : putRecord s name record = s := by
  have hforward : s.forward.set name record = s.forward := by
    rw [Store.set, ← h]
    exact Function.update_eq_self name s.forward
  rw [putRecord, hforward]

/-- The mappings are edited beside the records. -/
theorem unlinkOld_putRecord (s : State) (name : Bytes) (record other : ResolutionRecord) (address : Bytes) :
    unlinkOld (putRecord s name other) record address = putRecord (unlinkOld s record address) name other := by
  unfold unlinkOld
  split
  · split
    · rfl
    · rfl
  · rfl

/-- Who may write stays so while the registry and the record's owner stay. -/
theorem MayWrite.keep {s' : State} {record' : ResolutionRecord} (h : MayWrite out env s w name caller nowUnix record)
    (hregistry : s'.registry = s.registry) (howner : record'.owner = record.owner) :
    MayWrite out env s' w name caller nowUnix record' := by
  refine ⟨h.signed, ?_⟩
  have hchecked := h.owner
  unfold assertOwner registryOwner at hchecked ⊢
  rw [hregistry, howner]
  exact hchecked

theorem unlinkOld_registry (s : State) (record : ResolutionRecord) (address : Bytes) :
    (unlinkOld s record address).registry = s.registry :=
  (Touches.unlinkOld [] record address s).registry

/-- **`set_address` on a record written at any time** is the batch's address operation, written back. -/
theorem setAddress_stamped (h : MayWrite out env s w name caller nowUnix record) (time : UInt64) (address : Bytes) :
    setAddress out env (putRecord s name (record.stamped time)) w name caller defaultChain address nowUnix
      = .ok (putRecord (setReverse (unlinkOld s record address) address name) name
          (ResolutionRecord.stamped { record with addresses := record.addresses.insert defaultChain address } nowUnix)) := by
  have hrecord : getRecord (putRecord s name (record.stamped time)) name = .ok (record.stamped time) :=
    okOr_eq_ok.mpr (Store.set_self _ _ _)
  have howner : assertOwner out (putRecord s name (record.stamped time)) w name (record.stamped time) caller nowUnix
      = .ok () :=
    (h.keep rfl rfl).owner
  simp only [setAddress, requireAuth_ok h.signed, hrecord, howner, ok_bind_outcome, if_true]
  have hsame : unlinkOld (putRecord s name (record.stamped time)) (record.stamped time) address
      = putRecord (unlinkOld s record address) name (record.stamped time) :=
    unlinkOld_putRecord s name record (record.stamped time) address
  rw [hsame]
  exact congrArg Except.ok (putRecord_putRecord (setReverse (unlinkOld s record address) address name) name _ _)

/-- What both text paths refuse. -/
def TextRefused (record : ResolutionRecord) (key value : Bytes) : Prop :=
  validateTextRecordKey key ≠ .ok () ∨ maxTextRecordValueLength < value.length ∨ TextRecordsFull record.textRecords key

theorem setTextRecord_refused (time : UInt64) {key value : Bytes} (hrefused : TextRefused record key value) :
    ∃ f, setTextRecord out env (putRecord s name (record.stamped time)) w name caller key value nowUnix = .error f := by
  cases hresult : setTextRecord out env (putRecord s name (record.stamped time)) w name caller key value nowUnix with
  | error f => exact ⟨f, rfl⟩
  | ok s' =>
      simp only [setTextRecord, bind_eq_ok, requireAuth_eq_ok, mapErr_eq_ok, require_eq_ok, getRecord, okOr_eq_ok,
        exists_const] at hresult
      obtain ⟨_, ⟨⟩, hkey, hvalue, found, hfound, _, _, hroom, _⟩ := hresult
      obtain rfl : record.stamped time = found := Option.some.inj ((Store.set_self _ _ _).symm.trans hfound)
      rcases hrefused with hbad | hlong | hfull
      · exact absurd hkey hbad
      · exact absurd hvalue (Nat.not_le.mpr hlong)
      · exact absurd hfull hroom

theorem setTextRecord_stamped (h : MayWrite out env s w name caller nowUnix record) (time : UInt64) {key value : Bytes}
    (haccepted : ¬ TextRefused record key value) :
    setTextRecord out env (putRecord s name (record.stamped time)) w name caller key value nowUnix
      = .ok (putRecord s name
          (ResolutionRecord.stamped { record with textRecords := record.textRecords.insert key value } nowUnix)) := by
  simp only [TextRefused, not_or, not_not, Nat.not_lt] at haccepted
  obtain ⟨hkey, hvalue, hroom⟩ := haccepted
  have hrecord : getRecord (putRecord s name (record.stamped time)) name = .ok (record.stamped time) :=
    okOr_eq_ok.mpr (Store.set_self _ _ _)
  have howner : assertOwner out (putRecord s name (record.stamped time)) w name (record.stamped time) caller nowUnix
      = .ok () :=
    (h.keep rfl rfl).owner
  have hroom' : ¬ TextRecordsFull (record.stamped time).textRecords key := hroom
  simp only [setTextRecord, requireAuth_ok h.signed, mapErr_eq_ok.mpr hkey, require_ok hvalue, hrecord, howner,
    require_ok hroom', ok_bind_outcome]
  exact congrArg Except.ok (putRecord_putRecord _ name _ _)

/-! ## The fold -/

/-- **The single calls keep the batch's record in storage**, up to its time, and as many of them succeed as the batch
    counts. -/
theorem batch_invariant (ops : List BatchOp) (applied : UInt32) (time : UInt64)
    (h : MayWrite out env s w name caller nowUnix record) :
    ∃ time', run (step out w) (putRecord s name (record.stamped time)) (singles env name caller nowUnix ops)
        = putRecord (ops.foldl (applyOp name) (s, record, applied)).1 name
            ((ops.foldl (applyOp name) (s, record, applied)).2.1.stamped time') ∧
      (ops.foldl (applyOp name) (s, record, applied)).2.2 = applied + UInt32.ofNat
        (commits (step out w) (putRecord s name (record.stamped time)) (singles env name caller nowUnix ops)).length := by
  induction ops generalizing s record applied time with
  | nil => exact ⟨time, rfl, (UInt32.add_zero applied).symm⟩
  | cons op ops ih =>
      rw [List.foldl_cons]
      simp only [singles, List.map_cons, run_cons]
      -- one more success is one more counted
      have hcount : ∀ n : Nat, applied + 1 + UInt32.ofNat n = applied + UInt32.ofNat (n + 1) := by
        intro n
        rw [UInt32.add_assoc, UInt32.ofNat_add, UInt32.add_comm (UInt32.ofNat n)]
        rfl
      cases op with
      | setAddress address =>
          have hstep : step out w (putRecord s name (record.stamped time))
              ⟨env, BatchOp.single name caller nowUnix (.setAddress address)⟩ = _ := setAddress_stamped h time address
          obtain ⟨time', hrun, happlied⟩ := ih (applied + 1) nowUnix
            (h.keep (unlinkOld_registry s record address) rfl :
              MayWrite out env (setReverse (unlinkOld s record address) address name) w name caller nowUnix
                { record with addresses := record.addresses.insert defaultChain address })
          refine ⟨time', ?_, ?_⟩
          · rw [exec_ok hstep]
            exact hrun
          · rw [commits_cons_ok _ hstep, List.length_cons, ← hcount]
            exact happlied
      | setText key value =>
          by_cases hrefused : TextRefused record key value
          · have hskip : applyOp name (s, record, applied) (.setText key value) = (s, record, applied) := if_pos hrefused
            obtain ⟨f, hfail⟩ := setTextRecord_refused time hrefused
            have hstep : step out w (putRecord s name (record.stamped time))
                ⟨env, BatchOp.single name caller nowUnix (.setText key value)⟩ = .error f := hfail
            rw [hskip, exec_error hstep, commits_cons_error _ hstep]
            exact ih applied time h
          · have hwrite : applyOp name (s, record, applied) (.setText key value)
                = (s, { record with textRecords := record.textRecords.insert key value }, applied + 1) :=
              if_neg hrefused
            have hstep : step out w (putRecord s name (record.stamped time))
                ⟨env, BatchOp.single name caller nowUnix (.setText key value)⟩ = _ := setTextRecord_stamped h time hrefused
            obtain ⟨time', hrun, happlied⟩ := ih (applied + 1) nowUnix
              (h.keep rfl rfl : MayWrite out env s w name caller nowUnix
                { record with textRecords := record.textRecords.insert key value })
            refine ⟨time', ?_, ?_⟩
            · rw [hwrite, exec_ok hstep]
              exact hrun
            · rw [hwrite, commits_cons_ok _ hstep, List.length_cons, ← hcount]
              exact happlied

/-- The storage the single calls leave, and the number that succeed. -/
theorem batchSet_eq {ops : List BatchOp} (hvalid : validateFqdnSoroban name = .ok ())
    (hrecord : s.forward name = some record) (h : MayWrite out env s w name caller nowUnix record)
    (hlen : ops.length ≤ maxBatchOps) :
    ∃ record', (run (step out w) s (singles env name caller nowUnix ops)).forward name = some record' ∧
      batchSet out env s w name caller ops nowUnix
        = .ok (putRecord (run (step out w) s (singles env name caller nowUnix ops)) name (record'.stamped nowUnix),
            UInt32.ofNat (commits (step out w) s (singles env name caller nowUnix ops)).length) := by
  have hself : putRecord s name (record.stamped record.updatedAt) = s := putRecord_self hrecord
  obtain ⟨time, hrun, hcount⟩ := batch_invariant ops 0 record.updatedAt h
  rw [hself] at hrun hcount
  rw [UInt32.zero_add] at hcount
  refine ⟨(ops.foldl (applyOp name) (s, record, 0)).2.1.stamped time, ?_, ?_⟩
  · rw [hrun]
    exact Store.set_self _ _ _
  · simp only [batchSet, mapErr_eq_ok.mpr hvalid, requireAuth_ok h.signed, require_ok hlen, getRecord,
      okOr_eq_ok.mpr hrecord, h.owner, ok_bind_outcome]
    rw [hrun, putRecord_putRecord, ← hcount]
    rfl

theorem batchSet_too_long {ops : List BatchOp} (hlong : maxBatchOps < ops.length) :
    ∃ f, batchSet out env s w name caller ops nowUnix = .error f := by
  cases hresult : batchSet out env s w name caller ops nowUnix with
  | error f => exact ⟨f, rfl⟩
  | ok r =>
      simp only [batchSet, bind_eq_ok, require_eq_ok, exists_const] at hresult
      obtain ⟨_, _, _, _, hlen, _⟩ := hresult
      exact absurd hlen (Nat.not_le.mpr hlong)

theorem validNames_empty : ValidNames State.empty := fun _ _ h => nomatch h

theorem preserves_validNames (out : Outside ω) : Preserves (inWorlds (step out)) ValidNames :=
  fun _ _ _ hs h => hs.step h

/-- **`batch_set` is a sequential fold**: in every state the resolver reaches, in any worlds and by anyone's calls, for
    every name with a record and every caller who may write it. A batch of at most `MAX_BATCH_OPS` operations leaves
    what the single calls at the same time leave, with `updated_at` set to that time, and returns how many of them
    succeed; a longer one fails and changes nothing. -/
theorem batch_is_fold (out : Outside ω) (ts : List (ω × Tx Call)) (env : Env) (w : ω) (name : Bytes) (caller : Address)
    (ops : List BatchOp) (nowUnix : UInt64) (record : ResolutionRecord)
    (hrecord : (run (inWorlds (step out)) State.empty ts).forward name = some record)
    (h : MayWrite out env (run (inWorlds (step out)) State.empty ts) w name caller nowUnix record) :
    let s := run (inWorlds (step out)) State.empty ts
    let after := run (step out w) s (singles env name caller nowUnix ops)
    (ops.length ≤ maxBatchOps → ∃ applied record', after.forward name = some record' ∧
      batchSet out env s w name caller ops nowUnix = .ok (putRecord after name (record'.stamped nowUnix), applied) ∧
      applied.toNat = (commits (step out w) s (singles env name caller nowUnix ops)).length) ∧
    (maxBatchOps < ops.length → (∃ f, batchSet out env s w name caller ops nowUnix = .error f) ∧
      exec (step out w) s ⟨env, .batchSet name caller ops nowUnix⟩ = s) := by
  intro s after
  constructor
  · intro hlen
    have hvalid : validateFqdnSoroban name = .ok () :=
      (preserves_validNames out).run ts validNames_empty name record.owner (recordOwner_eq hrecord)
    obtain ⟨record', hafter, hbatch⟩ := batchSet_eq hvalid hrecord h hlen
    refine ⟨_, record', hafter, hbatch, toNat_ofNat_u32 ?_⟩
    -- no more than the sixteen operations of a batch succeed
    have hle := length_commits_le (step out w) s (singles env name caller nowUnix ops)
    rw [singles, List.length_map] at hle
    exact hle.trans (hlen.trans (by decide))
  · intro hlong
    obtain ⟨f, hfail⟩ : ∃ f, batchSet out env s w name caller ops nowUnix = .error f := batchSet_too_long hlong
    refine ⟨⟨f, hfail⟩, exec_error (e := f) ?_⟩
    simp only [step, hfail]
    rfl

namespace MixedBatch

open Cast

/-- Alice has a record with the address `GOLD`. -/
def setUp : List (Unit × Tx Call) := [((), ⟨signed, .setRecord aliceXlm alice (ascii "GOLD") 1000⟩)]

/-- An address, a text record with a capital in its key, and one without. -/
def ops : List BatchOp :=
  [.setAddress (ascii "GNEW"), .setText (ascii "Url") (ascii "x"), .setText (ascii "url") (ascii "x")]

/-- The resolver before the batch, and after the single calls. -/
def before : State := run (inWorlds (step nothingOutside)) State.empty setUp

/-- The resolver after the operations, one by one. -/
def afterwards : State := run (step nothingOutside ()) before (singles signed aliceXlm alice 2000 ops)

/-- Two of the three succeed, and the old address loses its mapping. -/
theorem two_applied :
    ∃ applied s', batchSet nothingOutside signed before () aliceXlm alice ops 2000 = .ok (s', applied) ∧
      applied.toNat = 2 ∧ s'.reverse (ascii "GOLD") = none ∧ s'.reverse (ascii "GNEW") = some aliceXlm := by
  have hold : afterwards.reverse (ascii "GOLD") = none := by decide +kernel
  have hnew : afterwards.reverse (ascii "GNEW") = some aliceXlm := by decide +kernel
  obtain ⟨applied, record', _, hbatch, hcount⟩ :=
    (batch_is_fold nothingOutside setUp signed () aliceXlm alice ops 2000 _ rfl ⟨by decide, rfl⟩).1 (by decide)
  exact ⟨applied, _, hbatch, hcount.trans (by decide +kernel), hold, hnew⟩

end MixedBatch

end XlmNs.Resolver
