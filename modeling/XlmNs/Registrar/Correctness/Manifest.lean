import Mathlib.Data.Finset.Card
import XlmNs.Registrar.Steps
import XlmNs.Soroban.Machine

/-!
# `Registrar.Correctness.Manifest` — loading a list of reserved labels

`load_reserved_manifest` walks a list and reserves what is valid and not reserved yet. What it leaves and what it counts
depend on one set, the labels that are new (`loadReserved_eq`); so neither the order of the list nor a repetition matters,
and a second load finds nothing new. No entrypoint takes a label off the reserved list again (`preserves_reserves`), and
`register` asks it.
-/

namespace XlmNs.Registrar

open Soroban

variable {ω : Type} {out : Outside ω} {self : Address} {env : Env} {s s' : State} {w : ω}
variable {label : Bytes} {labels : List Bytes} {new : Finset Bytes}

/-- `unwrap_or(false)` of the stored flag -/
abbrev Reserves (s : State) (label : Bytes) : Prop := (s.reserved label).getD false = true

/-- **The labels of a list that are new**: valid, and not reserved before. -/
def newLabels (s : State) (labels : List Bytes) : Finset Bytes :=
  labels.toFinset.filter fun label => validateLabelSoroban label = .ok () ∧ ¬ Reserves s label

/-- The storage with these labels reserved, too. -/
def reserving (s : State) (labels : Finset Bytes) : State :=
  { s with reserved := fun label => if label ∈ labels then some true else s.reserved label }

theorem mem_newLabels :
    label ∈ newLabels s labels ↔ label ∈ labels ∧ validateLabelSoroban label = .ok () ∧ ¬ Reserves s label := by
  rw [newLabels, Finset.mem_filter, List.mem_toFinset]

theorem card_newLabels_le (s : State) (labels : List Bytes) : (newLabels s labels).card ≤ labels.length :=
  Nat.le_trans (Finset.card_filter_le _ _) (List.toFinset_card_le labels)

/-- The order of the list and its repetitions do not matter. -/
theorem newLabels_congr {labels' : List Bytes} (h : ∀ label, label ∈ labels' ↔ label ∈ labels) :
    newLabels s labels' = newLabels s labels := by
  ext label
  rw [mem_newLabels, mem_newLabels, h]

theorem reserves_reserving : Reserves (reserving s new) label ↔ label ∈ new ∨ Reserves s label := by
  unfold Reserves reserving
  by_cases hnew : label ∈ new
  · simp [hnew]
  · simp [hnew]

theorem reserving_empty (s : State) : reserving s ∅ = s := by
  unfold reserving
  simp only [Finset.notMem_empty, if_false]

theorem reserving_reserving (s : State) (new new' : Finset Bytes) :
    reserving (reserving s new) new' = reserving s (new' ∪ new) := by
  unfold reserving
  congr 1
  funext other
  by_cases hnew' : other ∈ new'
  · simp [hnew']
  · simp [hnew']

/-- What has been reserved is not new any more. -/
theorem newLabels_disjoint (s : State) (new : Finset Bytes) (labels : List Bytes) :
    Disjoint (newLabels (reserving s new) labels) new := by
  rw [Finset.disjoint_left]
  intro label hmem hnew
  exact (mem_newLabels.mp hmem).2.2 (reserves_reserving.mpr (Or.inl hnew))

/-- **The new labels of a list** are its first label, if that is new, and what is new after it. -/
theorem newLabels_cons (s : State) (label : Bytes) (labels : List Bytes) :
    newLabels s (label :: labels) = newLabels (reserving s (newLabels s [label])) labels ∪ newLabels s [label] := by
  ext other
  rw [Finset.mem_union, mem_newLabels, mem_newLabels, reserves_reserving, mem_newLabels, List.mem_cons, List.mem_singleton]
  tauto

theorem newLabels_one (hvalid : validateLabelSoroban label = .ok ()) (hnew : ¬ Reserves s label) :
    newLabels s [label] = {label} := by
  ext other
  rw [mem_newLabels, List.mem_singleton, Finset.mem_singleton]
  constructor
  · exact And.left
  · rintro rfl
    exact ⟨rfl, hvalid, hnew⟩

theorem newLabels_none (h : validateLabelSoroban label = .ok () → Reserves s label) : newLabels s [label] = ∅ := by
  rw [Finset.eq_empty_iff_forall_notMem]
  intro other hmem
  obtain ⟨hother, hvalid, hnew⟩ := mem_newLabels.mp hmem
  obtain rfl := List.mem_singleton.mp hother
  exact hnew (h hvalid)

/-! ## The loop -/

theorem addReserved_eq (hvalid : validateLabelSoroban label = .ok ()) :
    addReserved s label = reserving s (newLabels s [label]) := by
  unfold addReserved
  by_cases hreserved : Reserves s label
  · rw [if_pos hreserved, newLabels_none fun _ => hreserved, reserving_empty]
  · rw [if_neg hreserved, newLabels_one hvalid hreserved]
    unfold reserving
    congr 1
    funext other
    rw [Store.set_apply]
    simp only [Finset.mem_singleton]

/-- **The loop reserves the new labels and adds their number to its count.** -/
theorem loadReserved_eq (s : State) (addedCount : UInt32) (labels : List Bytes) :
    loadReserved s addedCount labels
      = (reserving s (newLabels s labels), addedCount + UInt32.ofNat (newLabels s labels).card) := by
  induction labels generalizing s addedCount with
  | nil =>
      show (s, addedCount) = (reserving s ∅, addedCount + 0)
      rw [reserving_empty, UInt32.add_zero]
  | cons label labels ih =>
      unfold loadReserved
      rw [newLabels_cons, Finset.card_union_of_disjoint (newLabels_disjoint s _ labels), ← reserving_reserving]
      cases hvalid : validateLabelSoroban label with
      | error e =>
          have hnone : newLabels s [label] = ∅ := newLabels_none fun hok => by cases hvalid.symm.trans hok
          rw [hnone, reserving_empty]
          exact ih s addedCount
      | ok u =>
          simp only [addReserved_eq hvalid, ih]
          by_cases hreserved : Reserves s label
          · rw [if_pos hreserved, newLabels_none fun _ => hreserved, reserving_empty]
            rfl
          · rw [if_neg hreserved, newLabels_one hvalid hreserved, Finset.card_singleton, UInt32.ofNat_add,
              UInt32.add_assoc, UInt32.add_comm 1]
            rfl

theorem loadReservedManifest_eq_ok {added : UInt32} :
    loadReservedManifest env s labels = .ok (s', added) ↔
      requireAdmin env s = .ok () ∧ s' = reserving s (newLabels s labels) ∧
        added = UInt32.ofNat (newLabels s labels).card := by
  unfold loadReservedManifest
  rw [bind_eq_ok, loadReserved_eq, UInt32.zero_add]
  simp only [pure_eq_ok, Prod.mk.injEq]
  constructor
  · rintro ⟨_, hadmin, rfl, rfl⟩
    exact ⟨hadmin, rfl, rfl⟩
  · rintro ⟨hadmin, rfl, rfl⟩
    exact ⟨(), hadmin, rfl, rfl⟩

/-- Nothing is new in a list whose valid labels are reserved. -/
theorem loadReservedManifest_again (hadmin : requireAdmin env s = .ok ())
    (h : ∀ label ∈ labels, validateLabelSoroban label = .ok () → Reserves s label) :
    loadReservedManifest env s labels = .ok (s, 0) := by
  have hnone : newLabels s labels = ∅ := by
    rw [Finset.eq_empty_iff_forall_notMem]
    intro label hmem
    obtain ⟨hlabel, hvalid, hnew⟩ := mem_newLabels.mp hmem
    exact hnew (h label hlabel hvalid)
  refine loadReservedManifest_eq_ok.mpr ⟨hadmin, ?_, ?_⟩
  · rw [hnone, reserving_empty]
  · rw [hnone]
    rfl

/-! ## One label at a time -/

/-- The list, label by label. -/
def oneByOne (env : Env) (labels : List Bytes) : List (Tx Call) := labels.map fun label => ⟨env, .reserveLabel label⟩

theorem step_reserveLabel (hadmin : requireAdmin env s = .ok ()) :
    step out self (s, w) ⟨env, .reserveLabel label⟩
      = mapErr (validateLabelSoroban label) .validation >>= fun _ => .ok (addReserved s label, w) := by
  show (reserveLabel env s label >>= fun s => pure (s, w)) = _
  unfold reserveLabel
  rw [hadmin]
  cases validateLabelSoroban label <;> rfl

/-- An admin's `reserve_label`, failed or not, leaves its label reserved if it is valid. -/
theorem exec_reserveLabel (hadmin : requireAdmin env s = .ok ()) :
    exec (step out self) (s, w) ⟨env, .reserveLabel label⟩ = (reserving s (newLabels s [label]), w) := by
  have hstep : step out self (s, w) ⟨env, .reserveLabel label⟩ = _ := step_reserveLabel hadmin
  cases hvalid : validateLabelSoroban label with
  | error e =>
      rw [hvalid] at hstep
      have hnone : newLabels s [label] = ∅ := newLabels_none fun hok => by cases hvalid.symm.trans hok
      rw [exec_error hstep, hnone, reserving_empty]
  | ok u =>
      rw [hvalid] at hstep
      rw [exec_ok hstep, addReserved_eq hvalid]

theorem run_oneByOne (hadmin : requireAdmin env s = .ok ()) (labels : List Bytes) :
    run (step out self) (s, w) (oneByOne env labels) = (reserving s (newLabels s labels), w) := by
  induction labels generalizing s with
  | nil =>
      show (s, w) = (reserving s ∅, w)
      rw [reserving_empty]
  | cons label labels ih =>
      show run (step out self) (exec (step out self) (s, w) ⟨env, .reserveLabel label⟩) (oneByOne env labels) = _
      -- the admin is the same after a label was reserved
      have hkept : requireAdmin env (reserving s (newLabels s [label])) = .ok () := hadmin
      rw [exec_reserveLabel hadmin, ih hkept, reserving_reserving, ← newLabels_cons]

/-- Without the admin's signature every call fails. -/
theorem run_oneByOne_refused {f : Fault RegistrarError} (hadmin : requireAdmin env s = .error f) (labels : List Bytes) :
    run (step out self) (s, w) (oneByOne env labels) = (s, w) := by
  induction labels with
  | nil => rfl
  | cons label labels ih =>
      have hstep : step out self (s, w) ⟨env, .reserveLabel label⟩ = .error f := by
        show (reserveLabel env s label >>= fun s => pure (s, w)) = _
        unfold reserveLabel
        rw [hadmin]
        rfl
      show run (step out self) (exec (step out self) (s, w) ⟨env, .reserveLabel label⟩) (oneByOne env labels) = _
      rw [exec_error hstep, ih]

/-- **Loading a list is reserving its labels one by one**, those that fail being ignored. -/
theorem load_one_by_one (out : Outside ω) (self : Address) (env : Env) (s : State) (w : ω) (labels : List Bytes) :
    exec (step out self) (s, w) ⟨env, .loadReservedManifest labels⟩ = run (step out self) (s, w) (oneByOne env labels) := by
  have hload : step out self (s, w) ⟨env, .loadReservedManifest labels⟩
      = requireAdmin env s >>= fun _ => .ok ((loadReserved s 0 labels).1, w) := by
    show (loadReservedManifest env s labels >>= fun r => pure (r.1, w)) = _
    unfold loadReservedManifest
    cases requireAdmin env s <;> rfl
  cases hadmin : requireAdmin env s with
  | ok u =>
      rw [hadmin] at hload
      rw [exec_ok hload, loadReserved_eq, run_oneByOne hadmin]
  | error f =>
      rw [hadmin] at hload
      rw [exec_error hload, run_oneByOne_refused hadmin]

/-! ## Afterwards -/

/-- No administrative call takes a label off the list. -/
theorem Administration.reserves {c : Call} (hc : Administration env s s' c) (h : Reserves s label) : Reserves s' label := by
  cases hc with
  | @reserveLabel added hvalid =>
      rw [addReserved_eq hvalid]
      exact reserves_reserving.mpr (Or.inr h)
  | @loadReservedManifest labels =>
      rw [loadReserved_eq]
      exact reserves_reserving.mpr (Or.inr h)
  | initializeContract | upgrade | setRateLimitConfig | setGracePeriod | whitelistAddress | removeWhitelistAddress =>
      exact h

/-- **A label stays reserved**: no entrypoint takes one off the list. -/
theorem preserves_reserves (out : Outside ω) (self : Address) (label : Bytes) :
    Preserves (step out self) fun sw => Reserves sw.1 label := by
  rintro ⟨s, w⟩ ⟨env, c⟩ ⟨s', w'⟩ h hok
  cases c with
  | register sold owner years maxPrice nowUnix =>
      obtain ⟨_, _, _, _, _, _, _, _, _, _, rfl, _⟩ := register_eq_ok.mp hok
      exact h
  | renew name caller years payment nowUnix =>
      obtain ⟨_, _, _, _, _, _, _, _, _, rfl, _⟩ := renew_eq_ok.mp hok
      exact h
  | extendDuringGrace name caller years payment nowUnix =>
      obtain ⟨_, _, _, _, _, _, _, _, _, _, rfl, _⟩ := extendDuringGrace_eq_ok.mp hok
      exact h
  | _ =>
      obtain ⟨hadministration, rfl⟩ := step_administration hok rfl
      exact hadministration.reserves h

/-- A reserved label is not sold. -/
theorem register_reserved (h : Reserves s label) {owner : Address} {years maxPrice nowUnix : UInt64}
    {sold : State × ω} : register out self env s w label owner years maxPrice nowUnix ≠ .ok sold := by
  intro hok
  obtain ⟨_, _, _, _, hfree, _⟩ := register_eq_ok.mp hok
  exact Bool.false_ne_true (hfree.symm.trans h)

/-- **What a load that returned `added` has done.** A list the host can hold has at most `u32::MAX` elements. -/
structure Loaded (out : Outside ω) (addr : Address) (env : Env) (s : State) (w : ω) (labels : List Bytes) (s' : State)
    (added : UInt32) : Prop where
  count : labels.length ≤ u32Max → added.toNat = (newLabels s labels).card
  order : ∀ labels', labels'.Perm labels → loadReservedManifest env s labels' = .ok (s', added)
  again : loadReservedManifest env s' labels = .ok (s', 0)
  sold  : ∀ ts label, label ∈ labels → validateLabelSoroban label = .ok () →
    ∀ env owner years maxPrice nowUnix result,
      register out addr env (run (step out addr) (s', w) ts).1 (run (step out addr) (s', w) ts).2 label owner years
        maxPrice nowUnix ≠ .ok result

/-- **Manifest loading is a fold of `reserve_label`**, in every state of the registrar and for every list. A load that
    returns counts the new labels, whatever the order of the list; a second one finds none; and whatever happens next, no
    valid label of the list is sold. -/
theorem manifest_is_fold (out : Outside ω) (self : Address) (env : Env) (s : State) (w : ω) (labels : List Bytes) :
    exec (step out self) (s, w) ⟨env, .loadReservedManifest labels⟩
        = run (step out self) (s, w) (oneByOne env labels) ∧
      ∀ s' added, loadReservedManifest env s labels = .ok (s', added) → Loaded out self env s w labels s' added := by
  constructor
  · exact load_one_by_one out self env s w labels
  · intro s' added hload
    obtain ⟨hadmin, rfl, rfl⟩ := loadReservedManifest_eq_ok.mp hload
    have hreserved : ∀ label ∈ labels, validateLabelSoroban label = .ok () →
        Reserves (reserving s (newLabels s labels)) label := by
      intro label hlabel hvalid
      rw [reserves_reserving, mem_newLabels]
      by_cases hold : Reserves s label
      · exact Or.inr hold
      · exact Or.inl ⟨hlabel, hvalid, hold⟩
    constructor
    · intro hfits
      exact toNat_ofNat_u32 (Nat.le_trans (card_newLabels_le s labels) hfits)
    · intro labels' hperm
      have hsame : newLabels s labels' = newLabels s labels := newLabels_congr fun _ => hperm.mem_iff
      exact loadReservedManifest_eq_ok.mpr ⟨hadmin, by rw [hsame], by rw [hsame]⟩
    · exact loadReservedManifest_again hadmin hreserved
    · intro ts label hlabel hvalid _ _ _ _ _ _
      have hinit : Reserves (reserving s (newLabels s labels), w).1 label := hreserved label hlabel hvalid
      exact register_reserved ((preserves_reserves out self label).run ts hinit)

end XlmNs.Registrar
