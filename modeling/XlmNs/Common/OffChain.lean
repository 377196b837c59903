import XlmNs.Soroban.Utf8
import XlmNs.Common.Building

/-!
# `Common.OffChain` — the off-chain parser (`xlm-ns-common/src/validation.rs`)

The command line and the clients check names with functions on characters and string parts, which know no limit on the
whole name. They accept the strings whose bytes the contracts' validators accept.
-/

namespace XlmNs

open Soroban

/-- The only top-level domain. -/
inductive Tld
  | xlm
deriving DecidableEq, Repr

/-- Read a top-level domain. -/
def Tld.parse (value : String) : Option Tld :=
  match value with
  | "xlm" => some .xlm
  | _     => none

/-- `validate_label` of the off-chain crate: lengths in bytes, characters one by one. -/
def validateLabel (label : String) : Except CommonError Unit :=
  if label.utf8ByteSize < minNameLength then .error .nameTooShort
  else if label.utf8ByteSize > maxNameLength then .error .nameTooLong
  else if ¬ label.toList.all (fun ch => ch.isLower || ch.isDigit || ch == '-') then .error .invalidCharacters
  else if label.toList.head? = some '-' ∨ label.toList.getLast? = some '-' then .error .invalidLabelBoundary
  else .ok ()

/-- `name.split('.')`, read up to a third part. -/
def parseFqdn (name : String) : Except CommonError (String × Tld) :=
  match (name.toList.splitOn '.').map String.ofList with
  | []                  => .error .invalidName
  | [_]                 => .error .missingTld
  | _ :: _ :: _ :: _    => .error .invalidName
  | [label, tld]        => do
      validateLabel label
      match Tld.parse tld with
      | some parsedTld => return (label, parsedTld)
      | none           => throw .unsupportedTld

variable {label name : String}

/-! ## Labels -/

/-- A character of a label. -/
def isLabelChar (ch : Char) : Bool := ch.isLower || ch.isDigit || ch == '-'

theorem isLabelByte_lt {b : UInt8} (h : isLabelByte b = true) : b < 128 := by
  unfold isLabelByte isAsciiLowercase isAsciiDigit hyphen at h
  simp only [Bool.or_eq_true, Bool.and_eq_true, decide_eq_true_eq, beq_iff_eq, UInt8.le_iff_toNat_le,
    ← UInt8.toNat_inj] at h
  show b.toNat < 128
  rcases h with (⟨_, h⟩ | ⟨_, h⟩) | h
  · exact Nat.lt_of_le_of_lt h (by decide)
  · exact Nat.lt_of_le_of_lt h (by decide)
  · rw [h]
    decide

theorem isLabelChar_lt {ch : Char} (h : isLabelChar ch = true) : ch.toNat < 128 := by
  unfold isLabelChar Char.isLower Char.isDigit at h
  simp only [Bool.or_eq_true, Bool.and_eq_true, decide_eq_true_eq, beq_iff_eq, UInt32.le_iff_toNat_le, ge_iff_le] at h
  rcases h with (⟨_, h⟩ | ⟨_, h⟩) | rfl
  · exact Nat.lt_of_le_of_lt h (by decide)
  · exact Nat.lt_of_le_of_lt h (by decide)
  · decide

theorem isLabelByte_toUInt8 {ch : Char} (h : ch.toNat < 128) :
    isLabelByte ch.toNat.toUInt8 = true ↔ isLabelChar ch = true := by
  have hall : ∀ n : Fin 128, isLabelByte n.val.toUInt8 = isLabelChar (Char.ofNat n.val) := by decide +kernel
  have hch := hall ⟨ch.toNat, h⟩
  rw [Char.ofNat_toNat] at hch
  rw [hch]

theorem labelChars {chars : List Char} : (∀ b ∈ encode chars, isLabelByte b = true) ↔ ∀ ch ∈ chars, isLabelChar ch = true :=
  forall_encode (fun _ => isLabelByte_lt) (fun _ => isLabelChar_lt) (fun _ => isLabelByte_toUInt8)

theorem first_hyphen : (utf8 label).head? = some hyphen ↔ label.toList.head? = some '-' := by
  rw [utf8_eq_encode]
  exact head?_encode (d := '-') (by decide)

theorem last_hyphen : (utf8 label).getLast? = some hyphen ↔ label.toList.getLast? = some '-' := by
  rw [utf8_eq_encode]
  exact getLast?_encode (d := '-') (by decide)

/-- **A label of characters** is a label of bytes. -/
theorem validateLabel_eq_ok : validateLabel label = .ok () ↔ IsLabel (utf8 label) := by
  have hchars : label.toList.all isLabelChar = true ↔ ∀ b ∈ utf8 label, isLabelByte b = true := by
    rw [List.all_eq_true, utf8_eq_encode]
    exact labelChars.symm
  constructor
  · intro h
    unfold validateLabel at h
    split_ifs at h with hshort hlong hvalid hhyphen
    refine ⟨?_, ?_, fun b hb => isLabelByte_iff.mp (hchars.mp hvalid b hb), ?_, ?_⟩
    · rw [length_utf8]
      exact Nat.le_of_not_lt hshort
    · rw [length_utf8]
      exact Nat.le_of_not_lt hlong
    · exact fun hfirst => hhyphen (Or.inl (first_hyphen.mp hfirst))
    · exact fun hlast => hhyphen (Or.inr (last_hyphen.mp hlast))
  · intro h
    have hshort : minNameLength ≤ label.utf8ByteSize := length_utf8 label ▸ h.atLeast
    have hlong : label.utf8ByteSize ≤ maxNameLength := length_utf8 label ▸ h.atMost
    have hvalid := hchars.mpr (fun b hb => isLabelByte_iff.mpr (h.bytes b hb))
    have hhyphen : ¬ (label.toList.head? = some '-' ∨ label.toList.getLast? = some '-') := by
      rintro (hfirst | hlast)
      · exact h.first (first_hyphen.mpr hfirst)
      · exact h.last (last_hyphen.mpr hlast)
    unfold validateLabel
    rw [if_neg (Nat.not_lt.mpr hshort), if_neg (Nat.not_lt.mpr hlong)]
    exact (if_neg (not_not.mpr hvalid)).trans (if_neg hhyphen)

/-! ## Names -/

theorem tldParse_eq_some {value : String} {tld : Tld} : Tld.parse value = some tld ↔ value = "xlm" := by
  cases tld
  unfold Tld.parse
  split
  · exact iff_of_true rfl rfl
  · rename_i hother
    exact iff_of_false (fun h => nomatch h) hother

theorem dot_not_mem_chars (h : validateLabel label = .ok ()) : '.' ∉ label.toList := by
  intro hdot
  have hbytes := (validateLabel_eq_ok.mp h).bytes
  rw [utf8_eq_encode] at hbytes
  have hchars := labelChars.mp (fun b hb => isLabelByte_iff.mpr (hbytes b hb))
  exact absurd (hchars '.' hdot) (by decide)

/-- **Parsing** takes the suffix off a name with a valid label. -/
theorem parseFqdn_eq_ok {tld : Tld} :
    parseFqdn name = .ok (label, tld) ↔ validateLabel label = .ok () ∧ name = label ++ ".xlm" := by
  constructor
  · intro h
    unfold parseFqdn at h
    split at h
    · cases h
    · cases h
    · cases h
    · rename_i parts label' value hparts
      obtain ⟨_, hlabel, h⟩ := check_eq_ok.mp h
      split at h
      · rename_i htld
        obtain ⟨rfl, rfl⟩ := Prod.mk.inj (Except.ok.inj h)
        refine ⟨hlabel, ?_⟩
        obtain rfl := tldParse_eq_some.mp htld
        have hsplit : name.toList.splitOn '.' = [label'.toList, "xlm".toList] := by
          simpa [Function.comp_def] using congrArg (List.map String.toList) hparts
        have hback : ['.'].intercalate (name.toList.splitOn '.') = name.toList := List.intercalate_splitOn '.'
        have hjoined : name.toList = (label' ++ ".xlm").toList := by
          rw [← hback, hsplit, String.toList_append]
          simp [List.intercalate]
        exact String.toList_inj.mp hjoined
      · cases h
  · rintro ⟨hlabel, rfl⟩
    have hsplit : (label ++ ".xlm").toList.splitOn '.' = [label.toList, ['x', 'l', 'm']] := by
      rw [String.toList_append]
      exact List.splitOn_append_cons_self_of_not_mem (dot_not_mem_chars hlabel) _
    unfold parseFqdn
    rw [hsplit, List.map_cons, List.map_cons, List.map_nil, String.ofList_toList]
    exact check_eq_ok.mpr ⟨(), hlabel, rfl⟩

/-- The bytes of a base name off chain. -/
theorem utf8_append_suffix : utf8 (label ++ ".xlm") = utf8 label ++ dot :: xlm := by
  rw [utf8_eq_encode, String.toList_append, encode_append, ← utf8_eq_encode]
  rfl

/-- A string whose bytes are a label's before the suffix is that label's string. -/
theorem exists_label {bytes : Bytes} (hlabel : IsLabel bytes) (h : utf8 name = bytes ++ dot :: xlm) :
    ∃ label, utf8 label = bytes ∧ name = label ++ ".xlm" := by
  have hascii : ∀ b ∈ bytes, b < 128 := fun b hb => isLabelByte_lt (isLabelByte_iff.mpr (hlabel.bytes b hb))
  have hbytes : utf8 (String.ofList (bytes.map Char.ofUInt8)) = bytes := by
    rw [utf8_eq_encode, String.toList_ofList]
    exact encode_of_bytes hascii
  refine ⟨String.ofList (bytes.map Char.ofUInt8), hbytes, ?_⟩
  apply String.toList_inj.mp
  apply encode_injective
  rw [← utf8_eq_encode, ← utf8_eq_encode, utf8_append_suffix, hbytes]
  exact h

/-- **Off-chain and on-chain parsers agree** on every string: as to which names and which labels they accept, and on the
    label of a name. -/
theorem parsers_agree (s : String) :
    ((∃ parsed, parseFqdn s = .ok parsed) ↔ validateBaseNameSoroban (utf8 s) = .ok ()) ∧
    (∀ label tld, parseFqdn s = .ok (label, tld) → extractLabelSoroban (utf8 s) = .ok (utf8 label)) ∧
    (validateLabel s = .ok () ↔ validateLabelSoroban (utf8 s) = .ok ()) := by
  refine ⟨⟨?_, ?_⟩, ?_, ?_⟩
  · rintro ⟨⟨label, tld⟩, hparsed⟩
    obtain ⟨hlabel, rfl⟩ := parseFqdn_eq_ok.mp hparsed
    rw [utf8_append_suffix]
    exact validateBaseName_eq_ok.mpr ⟨utf8 label, validateLabelBytes_eq_ok.mpr (validateLabel_eq_ok.mp hlabel), rfl⟩
  · intro h
    obtain ⟨bytes, hbytes, hname⟩ := validateBaseName_eq_ok.mp h
    have hvalid := validateLabelBytes_eq_ok.mp hbytes
    obtain ⟨label, rfl, rfl⟩ := exists_label hvalid hname
    exact ⟨(label, .xlm), parseFqdn_eq_ok.mpr ⟨validateLabel_eq_ok.mpr hvalid, rfl⟩⟩
  · intro label tld hparsed
    obtain ⟨hlabel, rfl⟩ := parseFqdn_eq_ok.mp hparsed
    have hvalid := validateLabelBytes_eq_ok.mpr (validateLabel_eq_ok.mp hlabel)
    have hbase := validateBaseName_eq_ok.mpr ⟨_, hvalid, rfl⟩
    rw [utf8_append_suffix]
    exact extractLabel_eq_ok.mpr ⟨validateFqdn_of_baseName hbase, xlm, rfl, dot_not_mem_label hvalid⟩
  · exact validateLabel_eq_ok.trans (validateLabelBytes_eq_ok.symm.trans validateLabelSoroban_eq_ok.symm)

example : parseFqdn "café.xlm" = .error .invalidCharacters := by decide +kernel

example : validateBaseNameSoroban (utf8 "café.xlm") = .error .invalidCharacters := by decide +kernel

end XlmNs
