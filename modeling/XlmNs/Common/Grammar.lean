import XlmNs.Common.Buffered

/-!
# `Common.Grammar` — the grammar of names

A name is `l1.l2.….lk.xlm`, at most 68 bytes long, with labels of 3 to 64 bytes of `[a-z0-9-]` that neither begin nor end
with `-`. The three on-chain validators accept exactly this: `name_grammar` says so for every byte string, with the
arrays and panics of the source.
-/

namespace XlmNs

open Soroban

variable {label name parent : Bytes} {labels : List Bytes}

/-! ## The grammar -/

/-- **A label**: 3 to 64 bytes of `[a-z0-9-]`, the first and the last of them not `-`. -/
structure IsLabel (label : Bytes) : Prop where
  atLeast : 3 ≤ label.length
  atMost  : label.length ≤ 64
  bytes   : ∀ b ∈ label, (97 ≤ b ∧ b ≤ 122) ∨ (48 ≤ b ∧ b ≤ 57) ∨ b = 45
  first   : label.head? ≠ some 45
  last    : label.getLast? ≠ some 45

/-- Labels with dots between them. -/
def joined (labels : List Bytes) : Bytes := [dot].intercalate labels

/-- **A name with `k` labels**: at most 68 bytes, `l1.l2.….lk.xlm`. -/
structure IsName (k : Nat) (name : Bytes) : Prop where
  fits  : name.length ≤ 68
  parts : ∃ labels, labels.length = k ∧ (∀ label ∈ labels, IsLabel label) ∧ name = joined (labels ++ [xlm])

theorem joined_singleton (label : Bytes) : joined [label] = label := List.intercalate_singleton

theorem joined_cons (label next : Bytes) (labels : List Bytes) :
    joined (label :: next :: labels) = label ++ dot :: joined (next :: labels) := by
  simp [joined, List.intercalate]

/-- One more label at the end. -/
theorem joined_snoc (hlabels : labels ≠ []) (last : Bytes) : joined (labels ++ [last]) = joined labels ++ dot :: last := by
  induction labels with
  | nil => exact absurd rfl hlabels
  | cons label rest ih =>
      cases rest with
      | nil => simp [joined]
      | cons next rest =>
          have hrest := ih (List.cons_ne_nil _ _)
          rw [List.cons_append, List.cons_append, joined_cons, ← List.cons_append, hrest, joined_cons]
          simp

/-- The labels of a name and the name of its labels. -/
theorem joined_splitOn (name : Bytes) : joined (name.splitOn dot) = name := List.intercalate_splitOn dot

/-- Splitting at the dots undoes the joining. -/
theorem splitOn_joined (hlabels : labels ≠ []) (hdots : ∀ label ∈ labels, dot ∉ label) :
    (joined labels).splitOn dot = labels :=
  List.splitOn_intercalate dot hdots hlabels

/-! ## Labels -/

/-- The bytes of a label, by number. -/
theorem isLabelByte_iff {b : UInt8} :
    isLabelByte b = true ↔ (97 ≤ b ∧ b ≤ 122) ∨ (48 ≤ b ∧ b ≤ 57) ∨ b = 45 := by
  simp only [isLabelByte, isAsciiLowercase, isAsciiDigit, hyphen, Bool.or_eq_true, Bool.and_eq_true, decide_eq_true_eq,
    beq_iff_eq, or_assoc]

/-- The checks accept the labels of the grammar. -/
theorem validateLabelBytes_eq_ok : validateLabelBytes label = .ok () ↔ IsLabel label := by
  constructor
  · intro h
    have hbytes := labelBytes_of_valid h
    unfold validateLabelBytes at h
    split_ifs at h with hshort hlong hboundary
    exact ⟨Nat.le_of_not_lt hshort, Nat.le_of_not_lt hlong, fun b hb => isLabelByte_iff.mp (hbytes b hb),
      fun hfirst => hboundary (Or.inl hfirst), fun hlast => hboundary (Or.inr hlast)⟩
  · intro h
    have hchars : label.all (fun b => isAsciiLowercase b || isAsciiDigit b || b == hyphen) = true :=
      List.all_eq_true.mpr fun b hb => isLabelByte_iff.mpr (h.bytes b hb)
    have hshort : ¬ label.length < minNameLength := Nat.not_lt.mpr h.atLeast
    have hlong : ¬ label.length > maxNameLength := Nat.not_lt.mpr h.atMost
    have hboundary : ¬ (label.head? = some hyphen ∨ label.getLast? = some hyphen) := not_or.mpr ⟨h.first, h.last⟩
    unfold validateLabelBytes
    rw [if_neg hshort, if_neg hlong, if_neg hboundary, if_neg (not_not.mpr hchars)]

theorem IsLabel.dot_not_mem (h : IsLabel label) : dot ∉ label := dot_not_mem_label (validateLabelBytes_eq_ok.mpr h)

/-! ## Names -/

/-- The parts before the suffix are the labels. -/
theorem validateFqdn_iff_isName : validateFqdnSoroban name = .ok () ↔ ∃ k, 1 ≤ k ∧ IsName k name := by
  rw [validateFqdn_eq_ok]
  constructor
  · rintro ⟨hfits, before, rfl, hlabels⟩
    have hparts : before.splitOn dot ≠ [] := List.splitOn_ne_nil _ _
    refine ⟨(before.splitOn dot).length, List.length_pos_iff.mpr hparts, hfits, before.splitOn dot, rfl, ?_, ?_⟩
    · intro label hlabel
      exact validateLabelBytes_eq_ok.mp (hlabels label hlabel)
    · rw [joined_snoc hparts, joined_splitOn]
  · rintro ⟨k, hk, hfits, labels, rfl, hlabels, rfl⟩
    have hparts : labels ≠ [] := List.length_pos_iff.mp hk
    refine ⟨hfits, joined labels, joined_snoc hparts xlm, ?_⟩
    rw [splitOn_joined hparts fun label hlabel => (hlabels label hlabel).dot_not_mem]
    intro label hlabel
    exact validateLabelBytes_eq_ok.mpr (hlabels label hlabel)

/-- A base name is a name of one label. -/
theorem validateBaseName_iff_isName : validateBaseNameSoroban name = .ok () ↔ IsName 1 name := by
  constructor
  · intro h
    obtain ⟨label, hlabel, rfl⟩ := validateBaseName_eq_ok.mp h
    refine ⟨(validateFqdn_eq_ok.mp (validateFqdn_of_baseName h)).1, [label], rfl, ?_, ?_⟩
    · exact List.forall_mem_singleton.mpr (validateLabelBytes_eq_ok.mp hlabel)
    · rw [joined_snoc (List.cons_ne_nil _ _), joined_singleton]
  · rintro ⟨_, labels, hone, hlabels, rfl⟩
    obtain ⟨label, rfl⟩ := List.length_eq_one_iff.mp hone
    refine validateBaseName_eq_ok.mpr ⟨label, validateLabelBytes_eq_ok.mpr (hlabels label (List.mem_singleton_self _)), ?_⟩
    rw [joined_snoc (List.cons_ne_nil _ _), joined_singleton]

/-- **The name grammar**, for every byte string. The validators accept exactly the names, the base names and the labels;
    written with the arrays they copy into they are the same functions, and never panic. -/
theorem name_grammar (s : Bytes) :
    ((validateFqdnSoroban s = .ok () ↔ ∃ k, 1 ≤ k ∧ IsName k s) ∧
      (validateBaseNameSoroban s = .ok () ↔ IsName 1 s) ∧
      (validateLabelSoroban s = .ok () ↔ IsLabel s)) ∧
    (validateFqdnBuffered s = passOn (validateFqdnSoroban s) ∧ validateFqdnBuffered s ≠ .error .trap) ∧
    (validateBaseNameBuffered s = passOn (validateBaseNameSoroban s) ∧ validateBaseNameBuffered s ≠ .error .trap) ∧
    (validateLabelBuffered s = passOn (validateLabelSoroban s) ∧ validateLabelBuffered s ≠ .error .trap) := by
  refine ⟨⟨validateFqdn_iff_isName, validateBaseName_iff_isName, ?_⟩, ?_, ?_, ?_⟩
  · exact validateLabelSoroban_eq_ok.trans validateLabelBytes_eq_ok
  · rw [validateFqdnBuffered_eq]
    exact ⟨rfl, passOn_ne_trap⟩
  · rw [validateBaseNameBuffered_eq]
    exact ⟨rfl, passOn_ne_trap⟩
  · rw [validateLabelBuffered_eq]
    exact ⟨rfl, passOn_ne_trap⟩

end XlmNs
