import XlmNs.Resolver.Correctness.ReverseAgreement
import XlmNs.Resolver.Forgetting
import XlmNs.Resolver.Resolution

/-!
# `Resolver.Correctness.StellarWrites` — does a new address lead back to its name?

`set_record`, `set_address` on the default chain and `batch_set` give a name a Stellar address and write the reverse
mapping of that address. A reverse query believes the mapping only if the registry's owner is the one stored in the
record; `set_record` alone writes that owner anew. `reverse_finds_iff`: after such a write the query finds the name, or
another one through the primary mapping, exactly when the stored owner is the registry's or the primary mapping decides.
-/

namespace XlmNs.Resolver

open Soroban

variable {ω : Type} {out : Outside ω} {env : Env} {s s' : State} {w : ω} {a n : Bytes}

/-! ## Writes of a Stellar address -/

/-- `caller` gives `name` the default-chain address `address`. -/
structure StellarWrite where
  name    : Bytes
  caller  : Address
  address : Bytes

/-- The calls that do so; of a batch the last address counts. -/
def Call.stellarWrite : Call → Option StellarWrite
  | .setRecord name owner address _ => some ⟨name, owner, address⟩
  | .setAddress name caller chain address _ => if chain = defaultChain then some ⟨name, caller, address⟩ else none
  | .batchSet name caller ops _ => (finalAddress none ops).map (fun address => ⟨name, caller, address⟩)
  | _ => none

/-- The call writes the caller into the record as its owner. -/
def Call.refreshesOwner : Call → Bool
  | .setRecord .. => true
  | _ => false

/-- The addresses a call takes away from its name, for good or on the way. -/
def Call.unlinked (s : State) (c : Call) : List Bytes := ((c.relink s).map Relink.gone).getD []

theorem stellarWrite_setAddress {name chain address : Bytes} {caller : Address} {nowUnix : UInt64} {q : StellarWrite} :
    (Call.setAddress name caller chain address nowUnix).stellarWrite = some q ↔
      chain = defaultChain ∧ q = ⟨name, caller, address⟩ := by
  rw [Call.stellarWrite, Option.ite_none_right_eq_some, Option.some_inj]
  exact and_congr_right fun _ => eq_comm

theorem finalAddress_of_none {ops : List BatchOp} (h : finalAddress none ops = some a) (old : Option Bytes) :
    finalAddress old ops = some a := by
  induction ops with
  | nil => cases h
  | cons op ops ih =>
      cases op with
      | setAddress address => exact h
      | setText key value => exact ih h

/-- **Such a write is an edit** that ends with its address. -/
theorem relink_of_stellarWrite {c : Call} {q : StellarWrite} (hq : c.stellarWrite = some q) :
    c.relink s = some ⟨q.name, c.unlinked s, some q.address⟩ := by
  cases c with
  | setRecord name owner address nowUnix =>
      obtain rfl := Option.some.inj hq
      rfl
  | setAddress name caller chain address nowUnix =>
      obtain ⟨hchain, rfl⟩ := stellarWrite_setAddress.mp hq
      simp only [Call.unlinked, Call.relink, if_pos hchain]
      rfl
  | batchSet name caller ops nowUnix =>
      obtain ⟨address, hlast, rfl⟩ := Option.map_eq_some_iff.mp hq
      simp only [Call.unlinked, Call.relink, finalAddress_of_none hlast]
      rfl
  | _ => cases hq

/-- It is a write that asks the registry. -/
theorem request_of_stellarWrite {c : Call} {q : StellarWrite} (hq : c.stellarWrite = some q) :
    ∃ clock, c.request = some ⟨q.name, q.caller, clock⟩ ∧ c.skipsRegistry = false := by
  cases c with
  | setRecord name owner address nowUnix =>
      obtain rfl := Option.some.inj hq
      exact ⟨nowUnix, rfl, rfl⟩
  | setAddress name caller chain address nowUnix =>
      obtain ⟨_, rfl⟩ := stellarWrite_setAddress.mp hq
      exact ⟨nowUnix, rfl, rfl⟩
  | batchSet name caller ops nowUnix =>
      obtain ⟨_, _, rfl⟩ := Option.map_eq_some_iff.mp hq
      exact ⟨nowUnix, rfl, rfl⟩
  | _ => cases hq

/-- The last address of a batch has its reverse mapping. -/
theorem batch_reverse (name : Bytes) (ops : List BatchOp) (s : State) (record : ResolutionRecord) (applied : UInt32)
    (old : Option Bytes) (hold : ∀ address, old = some address → s.reverse address = some name)
    (h : finalAddress old ops = some a) :
    (ops.foldl (applyOp name) (s, record, applied)).1.reverse a = some name := by
  -- on the batch, with the last address written so far
  induction ops generalizing s record applied old with
  | nil => exact hold a h
  | cons op ops ih =>
      rw [List.foldl_cons]
      cases op with
      | setAddress address =>
          refine ih _ _ _ (some address) ?_ h
          rintro _ ⟨⟩
          exact Store.set_self _ _ _
      | setText key value =>
          rcases applyOp_setText name s record applied key value with hop | hop
          · rw [hop]
            exact ih s record applied old hold h
          · rw [hop]
            exact ih s _ _ old hold h

theorem reverse_of_stellarWrite {c : Call} {q : StellarWrite} (h : step out w s ⟨env, c⟩ = .ok s')
    (hq : c.stellarWrite = some q) : s'.reverse q.address = some q.name := by
  cases c with
  | setRecord name owner address nowUnix =>
      obtain rfl := Option.some.inj hq
      simp only [step, setRecord, bind_eq_ok, pure_eq_ok] at h
      obtain ⟨_, _, _, _, _, _, _, _, _, _, rfl⟩ := h
      exact Store.set_self _ _ _
  | setAddress name caller chain address nowUnix =>
      obtain ⟨hchain, rfl⟩ := stellarWrite_setAddress.mp hq
      simp only [step, setAddress, bind_eq_ok, pure_eq_ok, if_pos hchain] at h
      obtain ⟨_, _, _, _, _, _, rfl⟩ := h
      exact Store.set_self _ _ _
  | batchSet name caller ops nowUnix =>
      obtain ⟨address, hlast, rfl⟩ := Option.map_eq_some_iff.mp hq
      simp only [step, batchSet, bind_eq_ok, pure_eq_ok] at h
      obtain ⟨_, ⟨_, _, _, _, _, _, record, _, _, _, rfl⟩, rfl⟩ := h
      apply batch_reverse name ops s record 0 none _ hlast
      intro _ hnone
      cases hnone
  | _ => cases hq

/-- The owner on record is the caller if the write puts it there, or it was before. -/
theorem recordOwner_of_stellarWrite {c : Call} {q : StellarWrite} (h : step out w s ⟨env, c⟩ = .ok s')
    (hq : c.stellarWrite = some q) :
    recordOwner s' q.name = some q.caller ↔ c.refreshesOwner = true ∨ recordOwner s q.name = some q.caller := by
  rw [step_recordOwner h]
  cases c with
  | setRecord name owner address nowUnix =>
      obtain rfl := Option.some.inj hq
      exact iff_of_true (Function.update_self _ _ _) (Or.inl rfl)
  | setAddress | batchSet => exact (or_iff_right Bool.false_ne_true).symm
  | _ => cases hq

/-! ## The query afterwards -/

/-- The primary mapping of an address leads to another name than `n`, and is believed. -/
def PrimaryElsewhere (out : Outside ω) (env : Env) (s : State) (w : ω) (n a : Bytes) : Prop :=
  ∃ m, m ≠ n ∧ s.primary a = some m ∧ reverseLookupMatchesCurrentOwner out env s w m a = true

/-- **A query through a reverse mapping to `n`** finds `n` if it believes it, or the other primary name. -/
theorem reverse_mapped_iff (h : s.reverse a = some n) :
    ((reverse out env s w a).2 = some n ∨ PrimaryElsewhere out env s w n a) ↔
      reverseLookupMatchesCurrentOwner out env s w n a = true ∨ PrimaryElsewhere out env s w n a := by
  by_cases helse : PrimaryElsewhere out env s w n a
  · exact iff_of_true (Or.inr helse) (Or.inr helse)
  · rw [or_iff_left helse, or_iff_left helse]
    cases hlive : live out env s w a s.primary with
    | true =>
        -- what the primary mapping leads to is the name itself
        obtain ⟨m, hm⟩ := Option.ne_none_iff_exists'.mp (fun hnone => Bool.false_ne_true ((live_of_none hnone).symm.trans hlive))
        have hmatches := (live_of_some hm).symm.trans hlive
        obtain rfl : m = n := not_not.mp (fun hne => helse ⟨m, hne, hm, hmatches⟩)
        rw [reverse_live hlive]
        exact iff_of_true hm hmatches
    | false =>
        rw [reverse_not_live hlive, live_of_some h]
        cases reverseLookupMatchesCurrentOwner out env s w n a with
        | true => exact iff_of_true h rfl
        | false => exact iff_of_false (fun h => nomatch h) Bool.false_ne_true

/-- With a registry configured, a mapping is believed if the registry's owner is on record. -/
theorem matches_iff {registry : Address} {entry : RegistryEntry} (hregistry : s.registry = some registry)
    (haddress : addressOf s n = some a) (hentry : out.registryResolve registry n env.timestamp w = some entry) :
    reverseLookupMatchesCurrentOwner out env s w n a = true ↔ recordOwner s n = some entry.owner := by
  obtain ⟨record, hrecord, hdefault⟩ := Option.bind_eq_some_iff.mp haddress
  rw [recordOwner_eq hrecord, Option.some_inj]
  simp only [reverseLookupMatchesCurrentOwner, hrecord, hdefault, hregistry, hentry, ne_eq, not_true, if_false,
    decide_eq_true_eq]
  exact eq_comm

/-- A query's belief depends on the record and the registry only. -/
theorem matches_congr (hforward : s'.forward n = s.forward n) (hregistry : s'.registry = s.registry) :
    reverseLookupMatchesCurrentOwner out env s' w n a = reverseLookupMatchesCurrentOwner out env s w n a := by
  simp only [reverseLookupMatchesCurrentOwner, hforward, hregistry]

/-- An edit of `n` leaves another primary name of an address that it does not take away from `n`. -/
theorem primaryElsewhere_iff {q : Relink} (h : Relinks q s s') (hregistry : s'.registry = s.registry) :
    PrimaryElsewhere out env s' w q.name a ↔ a ∉ q.gone ∧ PrimaryElsewhere out env s w q.name a := by
  unfold PrimaryElsewhere
  rw [h.primary a]
  constructor
  · rintro ⟨m, hne, hm, hmatches⟩
    split at hm
    · cases hm
    · rename_i hkept
      exact ⟨hkept, m, hne, hm, (matches_congr (h.forward m hne) hregistry).symm.trans hmatches⟩
  · rintro ⟨hkept, m, hne, hm, hmatches⟩
    rw [if_neg hkept]
    exact ⟨m, hne, hm, (matches_congr (h.forward m hne) hregistry).trans hmatches⟩

theorem primaryElsewhere_time {query : Env} (h : query.timestamp = env.timestamp) :
    PrimaryElsewhere out query s w n a ↔ PrimaryElsewhere out env s w n a := by
  simp only [PrimaryElsewhere, reverseLookupMatchesCurrentOwner, h]

/-- **After a write of a Stellar address** a query finds the name or another primary name exactly when the owner on
    record is the registry's, from this write or from before, or the other primary name was there before. -/
theorem reverse_finds_iff {c : Call} {q : StellarWrite} {registry : Address} {entry : RegistryEntry} {query : Env}
    (h : step out w s ⟨env, c⟩ = .ok s') (hq : c.stellarWrite = some q) (hregistry : s.registry = some registry)
    (hentry : out.registryResolve registry q.name query.timestamp w = some entry) (howner : entry.owner = q.caller) :
    ((reverse out query s' w q.address).2 = some q.name ∨ PrimaryElsewhere out query s' w q.name q.address) ↔
      c.refreshesOwner = true ∨ recordOwner s q.name = some q.caller ∨
        q.address ∉ c.unlinked s ∧ PrimaryElsewhere out query s w q.name q.address := by
  have hrelink : c.relink s = _ := relink_of_stellarWrite hq
  have hrelinks := (step_effect h).relinks hrelink
  have hregistry' := relink_registry h hrelink
  rw [reverse_mapped_iff (reverse_of_stellarWrite h hq), primaryElsewhere_iff hrelinks hregistry',
    matches_iff (hregistry'.trans hregistry) hrelinks.address hentry, howner, recordOwner_of_stellarWrite h hq, or_assoc]

end XlmNs.Resolver
