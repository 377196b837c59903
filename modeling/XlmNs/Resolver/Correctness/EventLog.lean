import XlmNs.Resolver.Correctness.Batches
import XlmNs.Resolver.Events

/-!
# `Resolver.Correctness.EventLog` — what the log of the resolver tells

`Mirror.apply` is monotone in the mappings, and the events of every call but the three that drop outdated mappings
take the picture before it to the picture after it. So after every run, whatever the registry says in between,
`records_replay`: a follower has the addresses and text records of every name, and the mappings the resolver holds are
among its own; `mappings_replay_iff`: the mappings are the same all along iff no accepted call drops one.
`records_redelivered`: a follower that goes back in the log, however often, has the same records when it has caught up.
-/

namespace XlmNs.Resolver

open Soroban

variable {ω : Type} {out : Outside ω} {env : Env} {s s' : State} {w : ω} {c : Call} {m m' : Mirror}
variable {name : Bytes} {record record' : ResolutionRecord}

/-! ## The picture of a write -/

theorem unlinkOld_reverse (s : State) (record : ResolutionRecord) (address : Bytes) :
    (unlinkOld s record address).reverse = dropReplaced record.defaultAddress address s.reverse := by
  unfold unlinkOld dropReplaced
  cases record.defaultAddress with
  | none => rfl
  | some old =>
      by_cases hne : old ≠ address
      · simp only [if_pos hne]
        rfl
      · simp only [if_neg hne]

theorem unlinkOld_primary (s : State) (record : ResolutionRecord) (address : Bytes) :
    (unlinkOld s record address).primary = dropReplaced record.defaultAddress address s.primary := by
  unfold unlinkOld dropReplaced
  cases record.defaultAddress with
  | none => rfl
  | some old =>
      by_cases hne : old ≠ address
      · simp only [if_pos hne]
        rfl
      · simp only [if_neg hne]

/-- The address a name gets is not dropped. -/
theorem dropReplaced_set (old : Option Bytes) (address name : Bytes) (mapping : Store Bytes Bytes) :
    dropReplaced old address (mapping.set address name) = (dropReplaced old address mapping).set address name := by
  unfold dropReplaced
  cases old with
  | none => rfl
  | some old =>
      by_cases hne : old ≠ address
      · simp only [if_pos hne]
        exact Store.remove_set_ne mapping name (Ne.symm hne)
      · simp only [if_neg hne]

/-- Writing a record shows in the maps of its name. -/
theorem mirror_putRecord (s : State) (name : Bytes) (record : ResolutionRecord) :
    mirror (putRecord s name record) = { mirror s with records := (mirror s).records.set name record.maps } := by
  simp only [mirror, putRecord, Mirror.mk.injEq, and_self, and_true]
  exact Store.view_set _ _ _ _

theorem maps_mirror (hrecord : s.forward name = some record) : (mirror s).maps name = record.maps := by
  simp only [Mirror.maps, mirror, Store.view_eq _ hrecord, Option.getD_some]

theorem maps_putRecord (s : State) (name : Bytes) (record : ResolutionRecord) :
    (mirror (putRecord s name record)).maps name = record.maps := maps_mirror (Store.set_self _ _ _)

theorem maps_mirror_none (hnone : s.forward name = none) : (mirror s).maps name = (∅, ∅) := by
  simp only [Mirror.maps, mirror, Store.view, hnone]
  rfl

/-! ## One address of the default chain -/

/-- The picture after a name got an address of the default chain. -/
def Mirror.link (m : Mirror) (name address : Bytes) : Mirror :=
  let old := (m.maps name).1.lookup defaultChain
  { records := m.records.set name ((m.maps name).1.insert defaultChain address, (m.maps name).2)
    reverse := (dropReplaced old address m.reverse).set address name
    primary := dropReplaced old address m.primary }

theorem replay_fwd_rev (m : Mirror) (name address : Bytes) (nowUnix : UInt64) :
    replay Mirror.apply m [.fwdSet name address defaultChain nowUnix, .revSet address name] = m.link name address := by
  simp only [replay_cons, replay_nil, Mirror.apply, if_pos, Mirror.link]

/-- The order of the two events does not matter. -/
theorem replay_rev_fwd (m : Mirror) (name address : Bytes) (nowUnix : UInt64) :
    replay Mirror.apply m [.revSet address name, .fwdSet name address defaultChain nowUnix] = m.link name address := by
  simp only [replay_cons, replay_nil, Mirror.apply, if_pos, Mirror.link, dropReplaced_set, Mirror.maps]

/-- Linking a record of the resolver links it in the picture. -/
theorem mirror_link (s : State) (name address : Bytes) (record : ResolutionRecord) :
    mirror (setReverse (unlinkOld s record address) address name) =
      { mirror s with
        reverse := (dropReplaced record.defaultAddress address s.reverse).set address name
        primary := dropReplaced record.defaultAddress address s.primary } := by
  simp only [mirror, setReverse, unlinkOld_reverse, unlinkOld_primary, (unlinked_unlinkOld s record address).forward]

theorem link_told (hrecord : (mirror s).maps name = record.maps) {address : Bytes}
    (hmaps : record'.maps = (record.addresses.insert defaultChain address, record.textRecords)) :
    (mirror s).link name address =
      mirror (putRecord (setReverse (unlinkOld s record address) address name) name record') := by
  rw [mirror_putRecord, mirror_link, hmaps, Mirror.link, hrecord]
  rfl

/-- The same for an address of any chain but the default one. -/
theorem fwd_told (hrecord : (mirror s).maps name = record.maps) {chain address : Bytes} (hchain : chain ≠ defaultChain)
    (hmaps : record'.maps = (record.addresses.insert chain address, record.textRecords)) (nowUnix : UInt64) :
    (mirror s).apply (.fwdSet name address chain nowUnix) = mirror (putRecord s name record') := by
  rw [mirror_putRecord, hmaps]
  simp only [Mirror.apply, hrecord, if_neg hchain]
  rfl

/-- And for a text record. -/
theorem txt_told (hrecord : (mirror s).maps name = record.maps) {key value : Bytes}
    (hmaps : record'.maps = (record.addresses, record.textRecords.insert key value)) (nowUnix : UInt64) :
    (mirror s).apply (.txtSet name key value nowUnix) = mirror (putRecord s name record') := by
  rw [mirror_putRecord, hmaps]
  simp only [Mirror.apply, hrecord]
  rfl

/-! ## Batches -/

/-- **One operation of a batch**, the record being written after each instead of once at the end. -/
theorem op_told (name : Bytes) (nowUnix : UInt64) (s : State) (record : ResolutionRecord) (applied : UInt32)
    (op : BatchOp) :
    replay Mirror.apply (mirror (putRecord s name record)) (opEvents name nowUnix record op) =
      mirror (putRecord (applyOp name (s, record, applied) op).1 name (applyOp name (s, record, applied) op).2.1) := by
  have hrecord := maps_putRecord s name record
  cases op with
  | setAddress newAddr =>
      let record' : ResolutionRecord := { record with addresses := record.addresses.insert defaultChain newAddr }
      have htold := link_told hrecord (show record'.maps = _ from rfl)
      rw [unlinkOld_putRecord] at htold
      show replay _ _ [_, _] = _
      rw [replay_fwd_rev, htold]
      exact congrArg mirror (putRecord_putRecord (setReverse (unlinkOld s record newAddr) newAddr name) name record _)
  | setText key value =>
      let record' : ResolutionRecord := { record with textRecords := record.textRecords.insert key value }
      have htold := txt_told hrecord (show record'.maps = _ from rfl) nowUnix
      rw [putRecord_putRecord] at htold
      unfold opEvents applyOp
      dsimp only
      split
      · rfl
      · exact htold

/-- **The loop of a batch**: its events tell the record it leaves and the mappings it made on the way. -/
theorem batch_told (name : Bytes) (nowUnix : UInt64) (s : State) (record : ResolutionRecord) (applied : UInt32)
    (ops : List BatchOp) :
    replay Mirror.apply (mirror (putRecord s name record)) (batchEvents name nowUnix (s, record, applied) ops) =
      mirror (putRecord (ops.foldl (applyOp name) (s, record, applied)).1 name
        (ops.foldl (applyOp name) (s, record, applied)).2.1) := by
  induction ops generalizing s record applied with
  | nil => rfl
  | cons op ops ih =>
      rw [batchEvents, replay_append, op_told name nowUnix s record applied op, List.foldl_cons]
      exact ih _ _ _

/-! ## One invocation -/

/-- Calls that leave addresses, text records and mappings alone. -/
theorem mirror_put_same (hrecord : s.forward name = some record) (hmaps : record'.maps = record.maps) :
    mirror (putRecord s name record') = mirror s := by
  simp only [mirror, putRecord, Mirror.mk.injEq, and_self, and_true]
  exact Store.view_edit _ hrecord hmaps

theorem removed_told (s : State) (name : Bytes) (former : Option Bytes) :
    (mirror s).apply (.removed name former) = mirror { (match former with
      | some stellarAddr => removeMappings s stellarAddr
      | none             => s) with forward := s.forward.remove name, wildcard := s.wildcard.remove name } := by
  have hview := Store.view_remove ResolutionRecord.maps s.forward name
  cases former with
  | none | some stellarAddr =>
      simp only [Mirror.apply, mirror, hview]
      rfl

/-- **The events of a committed invocation tell what it did**, unless it drops outdated mappings. -/
theorem step_told (h : step out w s ⟨env, c⟩ = .ok s') (hc : c.isCleanup = false) :
    replay Mirror.apply (mirror s) (events s ⟨env, c⟩) = mirror s' := by
  cases c with
  | clearReverseRecord | reverse | batchReverse => cases hc
  | initializeContract registry admin =>
      simp only [step, initializeContract, bind_eq_ok, pure_eq_ok] at h
      obtain ⟨_, _, rfl⟩ := h
      rfl
  | setSubdomainContract subdomainContract =>
      simp only [step, setSubdomainContract, bind_eq_ok, pure_eq_ok] at h
      obtain ⟨_, _, _, _, rfl⟩ := h
      rfl
  | upgrade migrationData =>
      simp only [step, upgrade, upgradeStoring_eq_ok] at h
      obtain ⟨⟨admin, hadmin, _⟩, rfl⟩ := h
      simp only [events, hadmin]
      rfl
  | setWildcardResolution name caller enabled nowUnix =>
      simp only [step, setWildcardResolution, bind_eq_ok, pure_eq_ok] at h
      obtain ⟨_, _, _, _, _, _, rfl⟩ := h
      rfl
  | updateOwner name caller newOwner =>
      simp only [step, updateOwner, bind_eq_ok, requireAuth_eq_ok, getRecord, okOr_eq_ok, pure_eq_ok,
        exists_const] at h
      obtain ⟨_, record, hrecord, _, _, rfl⟩ := h
      let given : ResolutionRecord := { record with owner := newOwner }
      have hmaps : given.maps = record.maps := rfl
      exact (mirror_put_same hrecord hmaps).symm
  | transferRecordOwner name caller newOwner =>
      simp only [step, transferRecordOwner, bind_eq_ok, requireAuth_eq_ok, getRecord, okOr_eq_ok,
        require_eq_ok, pure_eq_ok, exists_const] at h
      obtain ⟨_, record, hrecord, _, rfl⟩ := h
      let given : ResolutionRecord := { record with owner := newOwner }
      have hmaps : given.maps = record.maps := rfl
      exact (mirror_put_same hrecord hmaps).symm
  | setPrimaryName address caller name =>
      simp only [step, setPrimaryName, bind_eq_ok, pure_eq_ok] at h
      obtain ⟨_, _, _, _, _, _, _, _, rfl⟩ := h
      rfl
  | setTextRecord name caller key value nowUnix =>
      simp only [step, setTextRecord, bind_eq_ok, requireAuth_eq_ok, mapErr_eq_ok, require_eq_ok, getRecord,
        okOr_eq_ok, pure_eq_ok, exists_const] at h
      obtain ⟨_, _, _, _, record, hrecord, _, _, _, rfl⟩ := h
      exact txt_told (maps_mirror hrecord) rfl nowUnix
  | setAddress name caller chain address nowUnix =>
      simp only [step, setAddress, bind_eq_ok, requireAuth_eq_ok, getRecord, okOr_eq_ok, pure_eq_ok,
        exists_const] at h
      obtain ⟨_, record, hrecord, _, _, rfl⟩ := h
      have hmaps := maps_mirror hrecord
      by_cases hchain : chain = defaultChain
      · subst hchain
        simp only [events, if_pos, List.cons_append, List.nil_append]
        rw [replay_rev_fwd]
        exact link_told hmaps rfl
      · simp only [events, if_neg hchain, List.nil_append]
        exact fwd_told hmaps hchain rfl nowUnix
  | setRecord name owner address nowUnix =>
      simp only [step, setRecord, bind_eq_ok, requireAuth_eq_ok, mapErr_eq_ok, require_eq_ok, pure_eq_ok,
        exists_const] at h
      obtain ⟨_, _, _, _, _, _, _, rfl⟩ := h
      show replay _ _ [_, _] = _
      rw [replay_fwd_rev]
      cases hexisting : s.forward name with
      | some existing => exact link_told (maps_mirror hexisting) rfl
      | none =>
          have hmaps := maps_mirror_none hexisting
          simp only [Mirror.link, hmaps, Finmap.lookup_empty]
          exact (mirror_putRecord (setReverse s address name) name
            ⟨owner, (∅ : StringMap).insert defaultChain address, ∅, nowUnix, false⟩).symm
  | removeRecord name caller =>
      simp only [step, removeRecord, bind_eq_ok, requireAuth_eq_ok, getRecord, okOr_eq_ok, pure_eq_ok,
        exists_const] at h
      obtain ⟨_, record, hrecord, _, _, rfl⟩ := h
      show (mirror s).apply (.removed name (addressOf s name)) = _
      rw [addressOf_eq hrecord, removed_told]
      cases record.defaultAddress with
      | none | some stellarAddr => rfl
  | batchSet name caller ops nowUnix =>
      simp only [step, batchSet, bind_eq_ok, mapErr_eq_ok, requireAuth_eq_ok, require_eq_ok, getRecord,
        okOr_eq_ok, pure_eq_ok, exists_const] at h
      obtain ⟨_, ⟨_, _, _, _, record, hrecord, _, _, rfl⟩, rfl⟩ := h
      have htold := batch_told name nowUnix s record 0 ops
      rw [mirror_put_same hrecord rfl] at htold
      simp only [events, hrecord]
      rw [htold, mirror_putRecord, mirror_putRecord]
      rfl

/-! ## Runs -/

/-- **One picture is part of another**: the records are the same, and the mappings of the first are among those of the
    second. -/
structure Below (m m' : Mirror) : Prop where
  records : m.records = m'.records
  reverse : Store.Within m.reverse m'.reverse
  primary : Store.Within m.primary m'.primary

theorem Below.refl (m : Mirror) : Below m m := ⟨rfl, fun _ _ h => h, fun _ _ h => h⟩

theorem Below.trans {m'' : Mirror} (h : Below m m') (h' : Below m' m'') : Below m m'' where
  records := h.records.trans h'.records
  reverse := fun a n hn => h'.reverse a n (h.reverse a n hn)
  primary := fun a n hn => h'.primary a n (h.primary a n hn)

theorem Below.maps (h : Below m m') (name : Bytes) : m.maps name = m'.maps name := by
  rw [Mirror.maps, Mirror.maps, h.records]

section Within

variable {mapping mapping' : Store Bytes Bytes} (h : Store.Within mapping mapping')
include h

theorem within_set (address name : Bytes) : Store.Within (mapping.set address name) (mapping'.set address name) :=
  (h.update_iff address _ _).mpr fun _ hv => hv

theorem within_remove (address : Bytes) : Store.Within (mapping.remove address) (mapping'.remove address) :=
  (h.update_iff address _ _).mpr fun _ hv => hv

theorem within_dropReplaced (old : Option Bytes) (address : Bytes) :
    Store.Within (dropReplaced old address mapping) (dropReplaced old address mapping') := by
  unfold dropReplaced
  cases old with
  | none => exact h
  | some old =>
      by_cases hne : old ≠ address
      · simp only [if_pos hne]
        exact within_remove h old
      · simp only [if_neg hne]
        exact h

theorem within_dropFormer (former : Option Bytes) :
    Store.Within (dropFormer former mapping) (dropFormer former mapping') := by
  cases former with
  | none => exact h
  | some address => exact within_remove h address

end Within

/-- **Applying an event is monotone.** -/
theorem Below.apply (h : Below m m') (e : Event) : Below (m.apply e) (m'.apply e) := by
  cases e with
  | upgraded => exact h
  | revSet address name => exact ⟨h.records, within_set h.reverse address name, h.primary⟩
  | primSet address name => exact ⟨h.records, h.reverse, within_set h.primary address name⟩
  | txtSet name key value nowUnix =>
      refine ⟨?_, h.reverse, h.primary⟩
      simp only [Mirror.apply, h.maps, h.records]
  | removed name former =>
      refine ⟨?_, within_dropFormer h.reverse former, within_dropFormer h.primary former⟩
      simp only [Mirror.apply, h.records]
  | fwdSet name address chain nowUnix =>
      constructor
      · simp only [Mirror.apply, h.maps, h.records]
      · simp only [Mirror.apply, h.maps]
        split
        · exact within_dropReplaced h.reverse _ address
        · exact h.reverse
      · simp only [Mirror.apply, h.maps]
        split
        · exact within_dropReplaced h.primary _ address
        · exact h.primary

theorem Below.replay (h : Below m m') (es : List Event) :
    Below (Soroban.replay Mirror.apply m es) (Soroban.replay Mirror.apply m' es) := by
  induction es generalizing m m' with
  | nil => exact h
  | cons e es ih => exact ih (h.apply e)

/-- A call that drops outdated mappings publishes nothing, and only drops. -/
theorem cleanup_below (h : step out w s ⟨env, c⟩ = .ok s') (hc : c.isCleanup = true) :
    events s ⟨env, c⟩ = [] ∧ Below (mirror s') (mirror s) := by
  have hbelow : Drops s s' → Below (mirror s') (mirror s) := fun hdrops =>
    ⟨congrArg (Store.view ResolutionRecord.maps) hdrops.forward, hdrops.reverse, hdrops.primary⟩
  cases c with
  | clearReverseRecord name previousOwner =>
      simp only [step, clearReverseRecord, bind_eq_ok, pure_eq_ok] at h
      obtain ⟨_, _, _, _, rfl⟩ := h
      exact ⟨rfl, hbelow (drops_cleanup s _ name)⟩
  | reverse address =>
      obtain rfl := pure_eq_ok.mp h
      exact ⟨rfl, hbelow (drops_reverse out env s w address)⟩
  | batchReverse addresses =>
      obtain rfl := pure_eq_ok.mp h
      exact ⟨rfl, hbelow (drops_batchReverse out env s w addresses)⟩
  | _ => cases hc

/-- **Addresses and text records can be rebuilt from the log, reverse mappings up to those dropped.** From any state on,
    whoever calls what and whatever the registry answers in between, a follower has the addresses and the text records of
    every name, and a mapping the resolver holds is one the follower holds. -/
theorem records_replay (out : Outside ω) (s : State) (is : List (Invocation ω)) :
    let m := replay Mirror.apply (mirror s) (eventLog out s is)
    let s' := run (stepIn out) s is
    (∀ name, m.records name = (s'.forward name).map fun record => (record.addresses, record.textRecords)) ∧
      (∀ address name, s'.reverse address = some name → m.reverse address = some name) ∧
      ∀ address name, s'.primary address = some name → m.primary address = some name := by
  let R : State → Mirror → Prop := fun s m => Below (mirror s) m
  have hstep : ∀ s (i : Invocation ω) s' m, R s m → stepIn out s i = .ok s' →
      R s' (replay Mirror.apply m (events s i.tx)) := by
    rintro s ⟨w, env, c⟩ s' m hbelow hok
    cases hc : c.isCleanup with
    | false =>
        have hsame := step_told hok hc
        have hmono := hbelow.replay (events s ⟨env, c⟩)
        rw [hsame] at hmono
        exact hmono
    | true =>
        obtain ⟨hsilent, hdropped⟩ := cleanup_below hok hc
        rw [hsilent]
        exact hdropped.trans hbelow
  have hrun : Below (mirror (run (stepIn out) s is)) (replay Mirror.apply (mirror s) (eventLog out s is)) :=
    replay_published_rel hstep is (Below.refl (mirror s))
  exact ⟨fun name => (congrFun hrun.records name).symm, hrun.reverse, hrun.primary⟩

/-- An accepted call leaves the mappings that are not told. -/
def KeepsMappings (out : Outside ω) (s : State) (i : Invocation ω) : Prop :=
  ∀ s', stepIn out s i = .ok s' → i.tx.call.isCleanup = true → s'.reverse = s.reverse ∧ s'.primary = s.primary

/-- **When the log tells the mappings, too.** A follower has the reverse and primary mappings of the resolver after every
    part of a run iff no accepted `clear_reverse_record`, `reverse` or `batch_reverse` drops one. -/
theorem mappings_replay_iff (out : Outside ω) (s : State) (is : List (Invocation ω)) :
    (∀ js, js <+: is → replay Mirror.apply (mirror s) (eventLog out s js) = mirror (run (stepIn out) s js)) ↔
      Along (stepIn out) (KeepsMappings out) s is := by
  have hiff : ∀ s (i : Invocation ω),
      Tells (stepIn out) (fun s i => events s i.tx) Mirror.apply mirror s i ↔ KeepsMappings out s i := by
    rintro s ⟨w, env, c⟩
    constructor
    · intro htells s' hok hc
      have hsame : replay Mirror.apply (mirror s) (events s ⟨env, c⟩) = mirror s' := htells s' hok
      rw [(cleanup_below hok hc).1] at hsame
      exact ⟨(congrArg Mirror.reverse hsame).symm, (congrArg Mirror.primary hsame).symm⟩
    · intro hkeeps s' hok
      cases hc : c.isCleanup with
      | false => exact step_told hok hc
      | true =>
          obtain ⟨hsilent, hdropped⟩ := cleanup_below hok hc
          obtain ⟨hreverse, hprimary⟩ := hkeeps s' hok hc
          show replay Mirror.apply (mirror s) (events s ⟨env, c⟩) = mirror s'
          rw [hsilent, replay_nil, mirror, mirror, hreverse, hprimary]
          exact congrArg (fun records => Mirror.mk records s.reverse s.primary) hdropped.records.symm
  unfold eventLog
  rw [replay_prefixes_iff]
  exact along_congr (along_of_forall hiff is s)

/-! ## Redelivery -/

theorem maps_of_set {maps : StringMap × StringMap} (h : m'.records = m.records.set name maps) (n : Bytes) :
    m'.maps n = if n = name then maps else m.maps n := by
  rw [Mirror.maps, h, Store.set_apply]
  split <;> rfl

theorem maps_of_remove (h : m'.records = m.records.remove name) (n : Bytes) :
    m'.maps n = if n = name then (∅, ∅) else m.maps n := by
  rw [Mirror.maps, h, Store.remove_apply]
  split <;> rfl

theorem lookup_insert_eq (maps : StringMap) (key value k : Bytes) :
    (maps.insert key value).lookup k = if k = key then some value else maps.lookup k := by
  split
  · rename_i hk
    rw [hk, Finmap.lookup_insert]
  · rename_i hk
    rw [Finmap.lookup_insert_of_ne _ hk]

/-- **An event is a patch of the places.** -/
theorem slots_apply (m : Mirror) (e : Event) : (m.apply e).slots = Patch.write m.slots e.patch := by
  funext slot
  cases e with
  | upgraded | revSet | primSet => cases slot <;> rfl
  | fwdSet name address chain nowUnix =>
      have hmaps : ∀ n, (m.apply (.fwdSet name address chain nowUnix)).maps n = _ := maps_of_set rfl
      cases slot with
      | address n ch =>
          simp only [Mirror.slots, hmaps, Patch.write, Event.patch, Slot.address.injEq]
          by_cases hn : n = name
          · subst hn
            simp only [if_pos, lookup_insert_eq, true_and]
            split <;> rfl
          · simp only [hn, false_and, if_false]
            rfl
      | text n key =>
          simp only [Mirror.slots, hmaps, Patch.write, Event.patch, reduceCtorEq, if_false]
          by_cases hn : n = name
          · subst hn
            simp only [if_pos]
            rfl
          · simp only [if_neg hn]
            rfl
  | txtSet name key value nowUnix =>
      have hmaps : ∀ n, (m.apply (.txtSet name key value nowUnix)).maps n = _ := maps_of_set rfl
      cases slot with
      | address n chain =>
          simp only [Mirror.slots, hmaps, Patch.write, Event.patch, reduceCtorEq, if_false]
          by_cases hn : n = name
          · subst hn
            simp only [if_pos]
            rfl
          · simp only [if_neg hn]
            rfl
      | text n k =>
          simp only [Mirror.slots, hmaps, Patch.write, Event.patch, Slot.text.injEq]
          by_cases hn : n = name
          · subst hn
            simp only [if_pos, lookup_insert_eq, true_and]
            split <;> rfl
          · simp only [hn, false_and, if_false]
            rfl
  | removed name former =>
      have hmaps : ∀ n, (m.apply (.removed name former)).maps n = _ := maps_of_remove rfl
      cases slot with
      | address n k | text n k =>
          simp only [Mirror.slots, hmaps, Patch.write, Event.patch, Slot.name]
          by_cases hn : n = name
          · simp [hn]
          · simp [hn]

/-- **Redelivery does not hurt.** A follower that may go back in the log of a run at any time, and has caught up with the
    first `hi` events, has the addresses and texts that reading these events once gives. -/
theorem records_redelivered (out : Outside ω) (s : State) (is : List (Invocation ω)) {d : List Event} {hi : Nat}
    (h : Delivery (eventLog out s is) d hi hi) :
    (replay Mirror.apply (mirror s) d).slots =
      (replay Mirror.apply (mirror s) ((eventLog out s is).take hi)).slots := by
  rw [overlay_map slots_apply, overlay_map slots_apply]
  exact h.overlay_eq _

/-- Two names for one address of another chain, the first event delivered once more after the second. -/
theorem records_redelivered_twice :
    let owner : Address := ⟨ascii "GA"⟩
    let chain := ascii "btc"
    let out : Outside Unit := ⟨fun _ _ _ _ => none, fun _ _ => none⟩
    let s := putRecord (putRecord State.empty (ascii "a") ⟨owner, ∅, ∅, 0, false⟩) (ascii "b") ⟨owner, ∅, ∅, 0, false⟩
    let set := fun name => (⟨(), ⟨0, [owner], none⟩, .setAddress name owner chain (ascii "1") 0⟩ : Invocation Unit)
    let es := eventLog out s [set (ascii "a"), set (ascii "b")]
    let a := Event.fwdSet (ascii "a") (ascii "1") chain 0
    let b := Event.fwdSet (ascii "b") (ascii "1") chain 0
    (replay Mirror.apply (mirror s) [a, b, a, b]).slots = (replay Mirror.apply (mirror s) (es.take 2)).slots := by
  intro owner chain out s set es a b
  have hes : es = [a, b] := rfl
  have hd : Delivery es [a, b, a, b] 2 2 := by
    rw [hes]
    exact (((Delivery.start.next (by decide)).next (by decide)).rewind (Nat.zero_le 2)).next (by decide) |>.next (by decide)
  exact records_redelivered out s _ hd

end XlmNs.Resolver
