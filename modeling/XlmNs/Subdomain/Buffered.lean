import XlmNs.Soroban.Buffers
import XlmNs.Soroban.Machine
import XlmNs.Subdomain.Correctness.Indexes

/-!
# `Subdomain.Buffered` — `create` on its arrays

`create` copies the label and the parent into arrays of 256 bytes each and joins them in a third. The array functions
panic out of range; `createBuffered` is written with them. It computes what `create` computes (`createBuffered_eq`), whose
checks of lengths are the ranges of the slices.
-/

namespace XlmNs.Subdomain

open Soroban

variable {ω : Type} {out : Outside ω} {env : Env} {s : State} {w : ω}
variable {label p : Bytes} {caller owner : Address} {nowUnix : UInt64}

/-- `create`, with its arrays. -/
def createBuffered (out : Outside ω) (env : Env) (s : State) (w : ω) (label parent : Bytes) (caller owner : Address)
    (nowUnix : UInt64) : Result (State × Bytes) := do
  requireAuth env caller
  let parentRecord ← getParent out env s w parent
  require (parentRecord.Admits caller) .unauthorized
  let labelByteCount := label.length
  let parentByteCount := parent.length
  let fqdnByteCount := labelByteCount + 1 + parentByteCount
  let labelBuf ← copyFromSlice (zeros 256) 0 labelByteCount label
  let parentBuf ← copyFromSlice (zeros 256) 0 parentByteCount parent
  if labelByteCount > 0 then
    let depth := 1 + (← slice labelBuf 0 labelByteCount).count dot
    require (depth ≤ (maxDepth s).toNat) .depthLimitExceeded
  let fqdnBytes ← copyFromSlice (zeros 256) 0 labelByteCount (← slice labelBuf 0 labelByteCount)
  let fqdnBytes ← setByte fqdnBytes labelByteCount dot
  let fqdnBytes ← copyFromSlice fqdnBytes (labelByteCount + 1) fqdnByteCount (← slice parentBuf 0 parentByteCount)
  let fqdn ← slice fqdnBytes 0 fqdnByteCount
  require (s.subdomain fqdn = none) .alreadyExists
  let s := { s with subdomain := s.subdomain.set fqdn ⟨parent, owner, nowUnix⟩ }
  return (addOwnerSubdomain (addParentSubdomain s parent fqdn) owner fqdn, fqdn)

/-- The depth is counted unless the label is empty. -/
theorem depth_eq {α : Type} (rest : Unit → Result α) :
    (if label.length > 0 then
        require (1 + label.count dot ≤ (maxDepth s).toNat) .depthLimitExceeded >>= rest
      else rest ())
      = require (label ≠ [] → 1 + label.count dot ≤ (maxDepth s).toNat) .depthLimitExceeded >>= rest := by
  cases label with
  | nil => rfl
  | cons b label =>
      have hlength : (b :: label).length > 0 := Nat.succ_pos label.length
      have hne : b :: label ≠ [] := List.cons_ne_nil b label
      rw [if_pos hlength]
      simp only [hne, ne_eq, not_false_eq_true, forall_const]

/-- The name is joined if it fits. -/
theorem joined_eq {α : Type} (rest : Bytes → Result α) :
    (do
      let fqdnBytes ← copyFromSlice (zeros 256) 0 label.length label
      let fqdnBytes ← setByte fqdnBytes label.length dot
      let fqdnBytes ← copyFromSlice fqdnBytes (label.length + 1) (label.length + 1 + p.length) p
      let fqdn ← slice fqdnBytes 0 (label.length + 1 + p.length)
      rest fqdn)
      = bufferSlice (label.length + 1 + p.length) >>= fun _ => rest (label ++ dot :: p) := by
  by_cases hroom : label.length + 1 + p.length ≤ 256
  · have hjoin := congrArg (fun r : Result Bytes => r >>= rest) (write_joined (c := dot) hroom)
    simp only [bind_assoc] at hjoin
    rw [hjoin, bufferSlice, if_pos hroom]
    rfl
  · have hjoin := congrArg (fun r : Result Bytes => r >>= rest) (write_joined_overflow (c := dot) (Nat.not_le.mp hroom))
    simp only [bind_assoc] at hjoin
    rw [hjoin, bufferSlice, if_neg hroom]
    rfl

/-- **The arrays of `create` change nothing** but that what does not fit them panics. -/
theorem createBuffered_eq (out : Outside ω) (env : Env) (s : State) (w : ω) (label parent : Bytes)
    (caller owner : Address) (nowUnix : UInt64) :
    createBuffered out env s w label parent caller owner nowUnix
      = create out env s w label parent caller owner nowUnix := by
  unfold createBuffered create
  apply bind_congr_outcome
  intro _ _
  apply bind_congr_outcome
  intro _ _
  apply bind_congr_outcome
  intro _ _
  dsimp only
  by_cases hlabel : label.length ≤ 256
  · rw [copyFromSlice_zeros hlabel, bufferSlice, if_pos hlabel, ok_bind_outcome, ok_bind_outcome]
    by_cases hparent : parent.length ≤ 256
    · rw [copyFromSlice_zeros hparent, bufferSlice, if_pos hparent]
      simp only [ok_bind_outcome, slice_done]
      refine (depth_eq _).trans ?_
      apply bind_congr_outcome
      intro _ _
      exact joined_eq _
    · rw [copyFromSlice_overflow (Nat.not_le.mp hparent), bufferSlice, if_neg hparent]
      rfl
  · rw [copyFromSlice_overflow (Nat.not_le.mp hlabel), bufferSlice, if_neg hlabel]
    rfl

/-! ## When they panic -/

/-- **The joined name fits**, or nothing is joined because the label has too many parts. -/
def LabelFits (s : State) (label parent : Bytes) : Prop :=
  label.length ≤ 256 ∧
    (label.length + 1 + parent.length ≤ 256 ∨ label ≠ [] ∧ (maxDepth s).toNat < 1 + label.count dot)

instance (s : State) (label parent : Bytes) : Decidable (LabelFits s label parent) := inferInstanceAs (Decidable (_ ∧ (_ ∨ _)))

theorem bufferSlice_traps {length : Nat} : bufferSlice length = .error .trap ↔ 256 < length := by
  unfold bufferSlice
  split
  · rename_i hfits
    exact iff_of_false (fun h => by cases h) (Nat.not_lt.mpr hfits)
  · rename_i hlong
    exact iff_of_true rfl (Nat.not_le.mp hlong)

theorem getParent_ne_trap : getParent out env s w p ≠ .error .trap :=
  bind_ne_error require_ne_trap fun _ => okOr_ne_trap

/-- A parent that is found has the length of a base name. -/
theorem length_getParent (hindexed : Indexed s) {rec : ParentDomain} (h : getParent out env s w p = .ok rec) :
    p.length ≤ maxFqdnLength := by
  obtain ⟨_, _, hparent⟩ := bind_eq_ok.mp h
  have hbase := hindexed.base p rec (okOr_eq_ok.mp hparent)
  exact (validateFqdn_eq_ok.mp (validateFqdn_of_baseName hbase)).1

/-- **A signed call of `create` panics** iff the caller may create below the parent and the name does not fit. -/
theorem create_traps_iff (hindexed : Indexed s) (hsigned : env.Authorises caller) :
    create out env s w label p caller owner nowUnix = .error .trap ↔
      (∃ rec, getParent out env s w p = .ok rec ∧ rec.Admits caller) ∧ ¬ LabelFits s label p := by
  unfold create
  rw [requireAuth_ok hsigned, ok_bind_outcome]
  simp only [bind_eq_error, getParent_ne_trap, require_ne_trap, false_or, require_eq_ok, bufferSlice_traps,
    bufferSlice_eq_ok, pure_ne_error, and_false, exists_false, or_false, exists_const]
  rw [← exists_and_right]
  refine exists_congr fun rec => ?_
  rw [and_assoc]
  refine and_congr_right fun hfound => and_congr_right fun _ => ?_
  have hparent : p.length ≤ 256 := Nat.le_trans (length_getParent hindexed hfound) (by decide)
  unfold LabelFits
  constructor
  · rintro (hlong | ⟨_, hlong | ⟨_, hdepth, hlong⟩⟩) ⟨hlabel, hjoined⟩
    · exact Nat.not_le.mpr hlong hlabel
    · exact Nat.not_le.mpr hlong hparent
    · rcases hjoined with hroom | ⟨hne, hdeep⟩
      · exact Nat.not_le.mpr hlong hroom
      · exact Nat.not_le.mpr hdeep (hdepth hne)
  · intro hfits
    by_cases hlabel : label.length ≤ 256
    · refine Or.inr ⟨hlabel, Or.inr ⟨hparent, ?_, ?_⟩⟩
      · intro hne
        by_contra hdeep
        exact hfits ⟨hlabel, Or.inr ⟨hne, Nat.not_le.mp hdeep⟩⟩
      · by_contra hroom
        exact hfits ⟨hlabel, Or.inl (Nat.not_lt.mp hroom)⟩
    · exact Or.inl (Nat.not_le.mp hlabel)

end XlmNs.Subdomain
