import XlmNs.Common.Names
import XlmNs.Soroban.Buffers

/-!
# `Common.Buffered` — the name functions with their buffers

`Common.Names` reads a host string as the list of its bytes. The source copies it into an array first and works on
slices of the array. Here the same functions are written with the arrays, the ranges and the panics that a range out of
bounds or a copy of the wrong length would be; each turns out to be the one of `Common.Names`, so none of them panics on
any input.
-/

namespace XlmNs

open Soroban

variable {label name parent value : Bytes}

/-- `copy_bytes`: the array and the number of its bytes in use. -/
def copyBytesBuffered (n : Nat) (value : Bytes) : Outcome CommonError (Bytes × Nat) := do
  let len := value.length
  require (len ≤ n) .nameTooLong
  let bytes ← copyFromSlice (zeros n) 0 len value
  return (bytes, len)

/-- `validate_label_soroban` on its buffer. -/
def validateLabelBuffered (label : Bytes) : Outcome CommonError Unit := do
  let (bytes, len) ← copyBytesBuffered maxNameLength label
  passOn (validateLabelBytes (← slice bytes 0 len))

/-- `validate_base_name_soroban` on its buffer. -/
def validateBaseNameBuffered (name : Bytes) : Outcome CommonError Unit := do
  let (bytes, len) ← copyBytesBuffered maxFqdnLength name
  let dotIndex ← passOn (position (← slice bytes 0 len))
  let rest ← slice bytes (dotIndex + 1) len
  require (rest.contains dot = false) .invalidName
  passOn (validateLabelBytes (← slice bytes 0 dotIndex))
  let rest ← slice bytes (dotIndex + 1) len
  require (rest = xlm) .unsupportedTld

/-- `validate_fqdn_soroban` on its buffer. -/
def validateFqdnBuffered (name : Bytes) : Outcome CommonError Unit := do
  let (bytes, len) ← copyBytesBuffered maxFqdnLength name
  let dotIndex ← passOn (rposition (← slice bytes 0 len))
  let rest ← slice bytes (dotIndex + 1) len
  require (rest = xlm) .unsupportedTld
  let labels ← slice bytes 0 dotIndex
  passOn (validateLabels (labels.splitOn dot))

/-- `extract_label_soroban` on its buffer. -/
def extractLabelBuffered (name : Bytes) : Outcome CommonError Bytes := do
  let (bytes, len) ← copyBytesBuffered maxFqdnLength name
  let dotIndex ← passOn (position (← slice bytes 0 len))
  validateFqdnBuffered name
  slice bytes 0 dotIndex

/-- `build_xlm_name` on its two buffers. -/
def buildXlmNameBuffered (label : Bytes) : Outcome CommonError Bytes := do
  let (bytes, len) ← copyBytesBuffered maxNameLength label
  passOn (validateLabelBytes (← slice bytes 0 len))
  let fqdn ← copyFromSlice (zeros maxFqdnLength) 0 len (← slice bytes 0 len)
  let fqdn ← setByte fqdn len dot
  let fqdn ← copyFromSlice fqdn (len + 1) (len + xlmSuffixLen) xlm
  slice fqdn 0 (len + xlmSuffixLen)

/-- `build_subdomain_name` on its two buffers. -/
def buildSubdomainNameBuffered (label parent : Bytes) : Outcome CommonError Bytes := do
  let (labelBytes, labelLen) ← copyBytesBuffered maxNameLength label
  passOn (validateLabelBytes (← slice labelBytes 0 labelLen))
  validateFqdnBuffered parent
  let parentLen := parent.length
  let parentBytes ← copyFromSlice (zeros maxFqdnLength) 0 parentLen parent
  let totalLen := labelLen + 1 + parentLen
  let full ← copyFromSlice (zeros (maxNameLength + 1 + maxFqdnLength)) 0 labelLen (← slice labelBytes 0 labelLen)
  let full ← setByte full labelLen dot
  let full ← copyFromSlice full (labelLen + 1) totalLen (← slice parentBytes 0 parentLen)
  slice full 0 totalLen

/-! ## The arrays change nothing -/

/-- A value that fits is in the array, followed by zeros. -/
theorem copyBytesBuffered_eq (n : Nat) (value : Bytes) :
    copyBytesBuffered n value
      = passOn (copyBytes n value) >>= fun bytes => .ok (bytes ++ zeros (n - bytes.length), bytes.length) := by
  unfold copyBytes
  by_cases h : value.length ≤ n
  · rw [if_neg (Nat.not_lt.mpr h)]
    simp only [copyBytesBuffered, require_ok h, copyFromSlice_zeros h, ok_bind_outcome]
    rfl
  · rw [if_pos (Nat.not_le.mp h)]
    simp only [copyBytesBuffered, require, if_neg h]
    rfl

theorem position_lt {i : Nat} (h : position name = .ok i) : i + 1 ≤ name.length := by
  obtain ⟨before, after, rfl, _, rfl⟩ := position_eq_ok.mp h
  simp only [List.length_append, List.length_cons]
  omega

theorem rposition_lt {i : Nat} (h : rposition name = .ok i) : i + 1 ≤ name.length := by
  obtain ⟨before, after, rfl, _, rfl⟩ := rposition_eq_ok.mp h
  simp only [List.length_append, List.length_cons]
  omega

theorem validateLabelBuffered_eq (label : Bytes) : validateLabelBuffered label = passOn (validateLabelSoroban label) := by
  simp only [validateLabelBuffered, validateLabelSoroban, copyBytesBuffered_eq, passOn_bind, bind_assoc, ok_bind_outcome,
    slice_done]

theorem validateBaseNameBuffered_eq (name : Bytes) :
    validateBaseNameBuffered name = passOn (validateBaseNameSoroban name) := by
  simp only [validateBaseNameBuffered, validateBaseNameSoroban, copyBytesBuffered_eq, passOn_bind, bind_assoc,
    ok_bind_outcome, slice_done]
  refine bind_congr_outcome fun bytes _ => bind_congr_outcome fun i hi => ?_
  have hlt := position_lt (passOn_eq_ok.mp hi)
  rw [passOn_refuse Bool.eq_false_iff, slice_from hlt, ok_bind_outcome]
  refine bind_congr_outcome fun _ _ => ?_
  rw [slice_to (Nat.le_of_succ_le hlt), ok_bind_outcome, passOn_bind]
  refine bind_congr_outcome fun _ _ => ?_
  rw [ok_bind_outcome, passOn_refuse_last not_not.symm]

theorem validateFqdnBuffered_eq (name : Bytes) : validateFqdnBuffered name = passOn (validateFqdnSoroban name) := by
  simp only [validateFqdnBuffered, validateFqdnSoroban, copyBytesBuffered_eq, passOn_bind, bind_assoc, ok_bind_outcome,
    slice_done]
  refine bind_congr_outcome fun bytes _ => bind_congr_outcome fun i hi => ?_
  have hlt := rposition_lt (passOn_eq_ok.mp hi)
  rw [passOn_refuse not_not.symm, slice_from hlt, ok_bind_outcome]
  refine bind_congr_outcome fun _ _ => ?_
  rw [slice_to (Nat.le_of_succ_le hlt), ok_bind_outcome]

theorem extractLabelBuffered_eq (name : Bytes) : extractLabelBuffered name = passOn (extractLabelSoroban name) := by
  simp only [extractLabelBuffered, extractLabelSoroban, copyBytesBuffered_eq, passOn_bind, bind_assoc, ok_bind_outcome,
    slice_done, validateFqdnBuffered_eq]
  refine bind_congr_outcome fun bytes _ => bind_congr_outcome fun i hi => bind_congr_outcome fun _ _ => ?_
  exact slice_to (Nat.le_of_succ_le (position_lt (passOn_eq_ok.mp hi)))

theorem buildXlmNameBuffered_eq (label : Bytes) : buildXlmNameBuffered label = passOn (buildXlmName label) := by
  simp only [buildXlmNameBuffered, buildXlmName, copyBytesBuffered_eq, passOn_bind, bind_assoc, ok_bind_outcome, slice_done]
  refine bind_congr_outcome fun bytes _ => bind_congr_outcome fun _ hlabel => ?_
  have hlen := length_label (passOn_eq_ok.mp hlabel)
  have hroom : bytes.length + 1 + xlm.length ≤ maxFqdnLength := by
    simp only [maxFqdnLength, xlmSuffixLen, xlm, List.length_cons, List.length_nil]
    omega
  exact write_joined hroom

theorem buildSubdomainNameBuffered_eq (label parent : Bytes) :
    buildSubdomainNameBuffered label parent = passOn (buildSubdomainName label parent) := by
  simp only [buildSubdomainNameBuffered, buildSubdomainName, copyBytesBuffered_eq, passOn_bind, bind_assoc,
    ok_bind_outcome, slice_done, validateFqdnBuffered_eq]
  refine bind_congr_outcome fun bytes _ => bind_congr_outcome fun _ hlabel => bind_congr_outcome fun _ hparent => ?_
  have hlen := length_label (passOn_eq_ok.mp hlabel)
  have hparentLen := (validateFqdn_eq_ok.mp (passOn_eq_ok.mp hparent)).1
  rw [copyFromSlice_zeros hparentLen, ok_bind_outcome]
  simp only [slice_done, ok_bind_outcome]
  exact write_joined (by omega)

end XlmNs
