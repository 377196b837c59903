import XlmNs.Soroban.Env

/-!
# `Common.Names` — the on-chain name grammar (`xlm-ns-common/src/soroban.rs`)

The validators every contract runs on the names it is given, and the builders of full names. A host `String`
is copied into a fixed buffer first, so its length is checked before anything else; the slices of that buffer
are `take`/`drop` of the byte list.
-/

namespace XlmNs

open Soroban

/-- `CommonError`, the cases the on-chain validators return. -/
inductive CommonError
  | nameTooShort
  | nameTooLong
  | invalidCharacters
  | invalidLabelBoundary
  | invalidName
  | missingTld
  | unsupportedTld
  | invalidRegistrationPeriod
  | emptyChainName
deriving DecidableEq, Repr

/-- `MAX_NAME_LENGTH`: the most bytes a label has. -/
def maxNameLength : Nat := 64

/-- `MIN_NAME_LENGTH`: the fewest. -/
def minNameLength : Nat := 3

/-- `MIN_REGISTRATION_YEARS` -/
def minRegistrationYears : UInt64 := 1

/-- `MAX_REGISTRATION_YEARS` -/
def maxRegistrationYears : UInt64 := 10

/-- The length of `.xlm`. -/
def xlmSuffixLen : Nat := 4

/-- `MAX_CHAIN_NAME_LENGTH` -/
def maxChainNameLength : Nat := 32

/-- `MAX_FQDN_LENGTH`: a label of full length and the suffix. -/
def maxFqdnLength : Nat := maxNameLength + xlmSuffixLen

/-- `b'.'` -/
def dot : UInt8 := 46

/-- `b'-'` -/
def hyphen : UInt8 := 45

/-- `b"xlm"` -/
def xlm : Bytes := [120, 108, 109]

/-- `u8::is_ascii_lowercase` -/
def isAsciiLowercase (b : UInt8) : Bool := 97 ≤ b && b ≤ 122

/-- `u8::is_ascii_digit` -/
def isAsciiDigit (b : UInt8) : Bool := 48 ≤ b && b ≤ 57

/-- Copy into a buffer of `n` bytes; longer values are refused. -/
def copyBytes (n : Nat) (value : Bytes) : Except CommonError Bytes :=
  if value.length > n then .error .nameTooLong else .ok value

/-- The grammar of a label, its checks in the order the source makes them. -/
def validateLabelBytes (bytes : Bytes) : Except CommonError Unit :=
  if bytes.length < minNameLength then .error .nameTooShort
  else if bytes.length > maxNameLength then .error .nameTooLong
  else if bytes.head? = some hyphen ∨ bytes.getLast? = some hyphen then .error .invalidLabelBoundary
  else if ¬ bytes.all (fun b => isAsciiLowercase b || isAsciiDigit b || b == hyphen) then
    .error .invalidCharacters
  else .ok ()

/-- A label in a host string. -/
def validateLabelSoroban (label : Bytes) : Except CommonError Unit := do
  let bytes ← copyBytes maxNameLength label
  validateLabelBytes bytes

/-- A registration is for one to ten years. -/
def validateRegistrationYearsSoroban (years : UInt64) : Except CommonError Unit :=
  if minRegistrationYears ≤ years ∧ years ≤ maxRegistrationYears then .ok ()
  else .error .invalidRegistrationPeriod

/-- Of a chain name only the length is checked. -/
def validateChainNameSoroban (chain : Bytes) : Except CommonError Unit :=
  if chain.length = 0 then .error .emptyChainName
  else if chain.length > maxChainNameLength then .error .nameTooLong
  else .ok ()

/-- `bytes.iter().position(|byte| *byte == b'.').ok_or(MissingTld)` -/
def position (bytes : Bytes) : Except CommonError Nat :=
  match bytes.findIdx? (· == dot) with
  | some i => .ok i
  | none   => .error .missingTld

/-- `bytes.iter().rposition(|byte| *byte == b'.').ok_or(MissingTld)` -/
def rposition (bytes : Bytes) : Except CommonError Nat :=
  match bytes.reverse.findIdx? (· == dot) with
  | some i => .ok (bytes.length - 1 - i)
  | none   => .error .missingTld

/-- A label and the top-level domain `xlm`, with one dot between them. -/
def validateBaseNameSoroban (name : Bytes) : Except CommonError Unit := do
  let bytes ← copyBytes maxFqdnLength name
  let dotIndex ← position bytes
  if (bytes.drop (dotIndex + 1)).contains dot then throw .invalidName
  validateLabelBytes (bytes.take dotIndex)
  if bytes.drop (dotIndex + 1) ≠ xlm then throw .unsupportedTld

/-- `for label in bytes.split(|b| *b == b'.') { validate_label_bytes(label)?; }` -/
def validateLabels : List Bytes → Except CommonError Unit
  | []              => .ok ()
  | label :: labels => do
      validateLabelBytes label
      validateLabels labels

/-- Labels with dots between them, below the top-level domain `xlm`. -/
def validateFqdnSoroban (name : Bytes) : Except CommonError Unit := do
  let bytes ← copyBytes maxFqdnLength name
  let dotIndex ← rposition bytes
  if bytes.drop (dotIndex + 1) ≠ xlm then throw .unsupportedTld
  validateLabels ((bytes.take dotIndex).splitOn dot)

/-- The first label of a valid name. -/
def extractLabelSoroban (name : Bytes) : Except CommonError Bytes := do
  let bytes ← copyBytes maxFqdnLength name
  let dotIndex ← position bytes
  validateFqdnSoroban name
  return bytes.take dotIndex

/-- The name of a label below `xlm`. -/
def buildXlmName (label : Bytes) : Except CommonError Bytes := do
  let bytes ← copyBytes maxNameLength label
  validateLabelBytes bytes
  return bytes ++ dot :: xlm

/-- The name of a label below a parent. -/
def buildSubdomainName (label parent : Bytes) : Except CommonError Bytes := do
  let labelBytes ← copyBytes maxNameLength label
  validateLabelBytes labelBytes
  validateFqdnSoroban parent
  return labelBytes ++ dot :: parent

/-! ## The checks that passed -/

variable {label name bytes : Bytes}

theorem check_eq_ok {α β : Type} {r : Except CommonError α} {f : α → Except CommonError β} {b : β} :
    (r >>= f) = .ok b ↔ ∃ a, r = .ok a ∧ f a = .ok b := by
  cases r with
  | ok a =>
      constructor
      · intro h
        exact ⟨a, rfl, h⟩
      · rintro ⟨_, ⟨⟩, h⟩
        exact h
  | error e =>
      constructor
      · intro h
        cases h
      · rintro ⟨_, ⟨⟩, _⟩

/-- A copy into a buffer changes nothing but the length it allows. -/
theorem copyBytes_eq_ok {n : Nat} {value : Bytes} : copyBytes n value = .ok bytes ↔ value.length ≤ n ∧ value = bytes := by
  unfold copyBytes
  split
  · rename_i hlong
    constructor
    · intro h
      cases h
    · rintro ⟨hle, _⟩
      exact absurd hle (Nat.not_le.mpr hlong)
  · rename_i hfits
    constructor
    · rintro ⟨⟩
      exact ⟨Nat.le_of_not_lt hfits, rfl⟩
    · rintro ⟨_, rfl⟩
      rfl

/-- `if c { return Err(e); }` before what the function goes on with. -/
theorem refuse_eq_ok {α β : Type} {c : Prop} [Decidable c] {e : CommonError} {f : α → Except CommonError β}
    {r : Except CommonError β} {b : β} : (if c then throw e >>= f else r) = .ok b ↔ ¬ c ∧ r = .ok b := by
  split
  · rename_i hc
    exact iff_of_false (fun h => nomatch h) (fun h => h.1 hc)
  · rename_i hc
    exact (and_iff_right hc).symm

/-- The same at the end of the function. -/
theorem refuse_last_eq_ok {c : Prop} [Decidable c] {e : CommonError} {u : Unit} :
    (if c then throw e else pure () : Except CommonError Unit) = .ok u ↔ ¬ c := by
  split
  · rename_i hc
    exact iff_of_false (fun h => nomatch h) (not_not.mpr hc)
  · rename_i hc
    exact iff_of_true rfl hc

/-- A label fits the buffer of a label. -/
theorem length_label (h : validateLabelBytes label = .ok ()) : label.length ≤ maxNameLength := by
  unfold validateLabelBytes at h
  split_ifs at h with _ hlong
  exact Nat.le_of_not_lt hlong

/-- A byte of a label. -/
def isLabelByte (b : UInt8) : Bool := isAsciiLowercase b || isAsciiDigit b || b == hyphen

/-- A label has letters, digits and hyphens only. -/
theorem labelBytes_of_valid (h : validateLabelBytes label = .ok ()) : ∀ b ∈ label, isLabelByte b = true := by
  unfold validateLabelBytes at h
  split_ifs at h with _ _ _ hchars
  exact List.all_eq_true.mp hchars

/-- So it has no dot. -/
theorem dot_not_mem_label (h : validateLabelBytes label = .ok ()) : dot ∉ label := by
  intro hdot
  exact absurd (labelBytes_of_valid h dot hdot) (by decide)

theorem dot_not_mem_xlm : dot ∉ xlm := by decide

/-- The buffer holds every label. -/
theorem validateLabelSoroban_eq_ok : validateLabelSoroban label = .ok () ↔ validateLabelBytes label = .ok () := by
  unfold validateLabelSoroban
  simp only [check_eq_ok, copyBytes_eq_ok]
  constructor
  · rintro ⟨_, ⟨_, rfl⟩, h⟩
    exact h
  · intro h
    exact ⟨label, ⟨length_label h, rfl⟩, h⟩

/-- A built name is a label and the suffix. -/
theorem buildXlmName_eq_ok :
    buildXlmName label = .ok name ↔ validateLabelBytes label = .ok () ∧ name = label ++ dot :: xlm := by
  unfold buildXlmName
  simp only [check_eq_ok, copyBytes_eq_ok]
  constructor
  · rintro ⟨_, ⟨_, rfl⟩, _, hlabel, ⟨⟩⟩
    exact ⟨hlabel, rfl⟩
  · rintro ⟨hlabel, rfl⟩
    exact ⟨label, ⟨length_label hlabel, rfl⟩, (), hlabel, rfl⟩

/-- The loop over the labels looks at each of them. -/
theorem validateLabels_eq_ok {labels : List Bytes} :
    validateLabels labels = .ok () ↔ ∀ label ∈ labels, validateLabelBytes label = .ok () := by
  induction labels with
  | nil => exact iff_of_true rfl (List.forall_mem_nil _)
  | cons label labels ih =>
      rw [List.forall_mem_cons, ← ih]
      exact check_eq_ok.trans ⟨fun ⟨_, hlabel, hlabels⟩ => ⟨hlabel, hlabels⟩, fun ⟨hlabel, hlabels⟩ => ⟨(), hlabel, hlabels⟩⟩

/-! ## Searching for a dot -/

/-- The first dot is where a part without dots ends. -/
theorem findIdx?_dot {i : Nat} :
    bytes.findIdx? (· == dot) = some i ↔
      ∃ before after, bytes = before ++ dot :: after ∧ dot ∉ before ∧ i = before.length := by
  induction bytes generalizing i with
  | nil => simp
  | cons b bytes ih =>
      rw [List.findIdx?_cons]
      by_cases hb : b = dot
      · subst hb
        constructor
        · rintro ⟨⟩
          exact ⟨[], bytes, rfl, List.not_mem_nil, rfl⟩
        · rintro ⟨before, after, hsplit, hbefore, rfl⟩
          cases before with
          | nil => rfl
          | cons c before =>
              -- the first byte would be a dot of `before`
              obtain ⟨rfl, _⟩ := List.cons.inj hsplit
              exact absurd List.mem_cons_self hbefore
      · rw [if_neg (by simpa using hb), Option.map_eq_some_iff]
        constructor
        · rintro ⟨j, hj, rfl⟩
          obtain ⟨before, after, rfl, hbefore, rfl⟩ := ih.mp hj
          exact ⟨b :: before, after, rfl, List.not_mem_cons_of_ne_of_not_mem (Ne.symm hb) hbefore, rfl⟩
        · rintro ⟨before, after, hsplit, hbefore, rfl⟩
          cases before with
          | nil => exact absurd (List.cons.inj hsplit).1 hb
          | cons c before =>
              obtain ⟨rfl, hrest⟩ := List.cons.inj hsplit
              exact ⟨before.length, ih.mpr ⟨before, after, hrest, List.not_mem_of_not_mem_cons hbefore, rfl⟩, rfl⟩

/-- **The first dot** is where a name is cut into a part without dots and the rest. -/
theorem position_eq_ok {i : Nat} :
    position bytes = .ok i ↔ ∃ before after, bytes = before ++ dot :: after ∧ dot ∉ before ∧ i = before.length := by
  rw [← findIdx?_dot]
  unfold position
  cases bytes.findIdx? (· == dot) with
  | none => exact iff_of_false (fun h => nomatch h) (fun h => nomatch h)
  | some j => exact ⟨fun h => congrArg some (Except.ok.inj h), fun h => congrArg Except.ok (Option.some.inj h)⟩

/-- **The last dot** is where it is cut into a part and a rest without dots. -/
theorem rposition_eq_ok {i : Nat} :
    rposition bytes = .ok i ↔ ∃ before after, bytes = before ++ dot :: after ∧ dot ∉ after ∧ i = before.length := by
  have hlast : rposition bytes = .ok i ↔
      ∃ j, bytes.reverse.findIdx? (· == dot) = some j ∧ bytes.length - 1 - j = i := by
    unfold rposition
    cases bytes.reverse.findIdx? (· == dot) with
    | none => exact iff_of_false (fun h => nomatch h) (fun ⟨_, h, _⟩ => nomatch h)
    | some j =>
        exact ⟨fun h => ⟨j, rfl, Except.ok.inj h⟩, fun ⟨_, hj, h⟩ => congrArg Except.ok (Option.some.inj hj ▸ h)⟩
  rw [hlast]
  constructor
  · rintro ⟨j, hj, rfl⟩
    obtain ⟨after, before, hsplit, hafter, rfl⟩ := findIdx?_dot.mp hj
    have hbytes : bytes = before.reverse ++ dot :: after.reverse := by
      rw [← List.reverse_reverse bytes, hsplit]
      simp
    refine ⟨before.reverse, after.reverse, hbytes, fun h => hafter (List.mem_reverse.mp h), ?_⟩
    rw [hbytes]
    simp only [List.length_append, List.length_cons, List.length_reverse]
    omega
  · rintro ⟨before, after, rfl, hafter, rfl⟩
    refine ⟨after.length, findIdx?_dot.mpr ⟨after.reverse, before.reverse, by simp, ?_, by simp⟩, ?_⟩
    · exact fun h => hafter (List.mem_reverse.mp h)
    · simp only [List.length_append, List.length_cons]
      omega

/-! ## What the validators accept -/

/-- **A full name** is valid labels, cut at the dots before the suffix, and fits its buffer. -/
theorem validateFqdn_eq_ok :
    validateFqdnSoroban name = .ok () ↔
      name.length ≤ maxFqdnLength ∧ ∃ before, name = before ++ dot :: xlm ∧
        ∀ label ∈ before.splitOn dot, validateLabelBytes label = .ok () := by
  unfold validateFqdnSoroban
  simp only [check_eq_ok, copyBytes_eq_ok, rposition_eq_ok, refuse_eq_ok, validateLabels_eq_ok]
  constructor
  · rintro ⟨_, ⟨hfits, rfl⟩, _, ⟨before, after, rfl, _, rfl⟩, hsuffix, hlabels⟩
    have hxlm : after = xlm := by simpa using hsuffix
    rw [List.take_left] at hlabels
    exact ⟨hfits, before, by rw [hxlm], hlabels⟩
  · rintro ⟨hfits, before, rfl, hlabels⟩
    refine ⟨_, ⟨hfits, rfl⟩, before.length, ⟨before, xlm, rfl, dot_not_mem_xlm, rfl⟩, by simp, ?_⟩
    rw [List.take_left]
    exact hlabels

/-- **A base name** is a valid label before the suffix. -/
theorem validateBaseName_eq_ok :
    validateBaseNameSoroban name = .ok () ↔ ∃ label, validateLabelBytes label = .ok () ∧ name = label ++ dot :: xlm := by
  unfold validateBaseNameSoroban
  simp only [check_eq_ok, copyBytes_eq_ok, position_eq_ok, refuse_eq_ok, refuse_last_eq_ok]
  constructor
  · rintro ⟨_, ⟨_, rfl⟩, _, ⟨label, after, rfl, _, rfl⟩, _, _, hlabel, hsuffix⟩
    have hxlm : after = xlm := by simpa using hsuffix
    rw [List.take_left] at hlabel
    exact ⟨label, hlabel, by rw [hxlm]⟩
  · rintro ⟨label, hlabel, rfl⟩
    have hfits : (label ++ dot :: xlm).length ≤ maxFqdnLength := by
      have := length_label hlabel
      simp only [List.length_append, List.length_cons, xlm, List.length_nil, maxFqdnLength, xlmSuffixLen]
      omega
    refine ⟨_, ⟨hfits, rfl⟩, label.length, ⟨label, xlm, rfl, dot_not_mem_label hlabel, rfl⟩, ?_, (), ?_, by simp⟩
    · simpa using dot_not_mem_xlm
    · rw [List.take_left]
      exact hlabel

/-- **Base names are full names.** -/
theorem validateFqdn_of_baseName (h : validateBaseNameSoroban name = .ok ()) : validateFqdnSoroban name = .ok () := by
  obtain ⟨label, hlabel, rfl⟩ := validateBaseName_eq_ok.mp h
  refine validateFqdn_eq_ok.mpr ⟨?_, label, rfl, ?_⟩
  · have := length_label hlabel
    simp only [List.length_append, List.length_cons, xlm, List.length_nil, maxFqdnLength, xlmSuffixLen]
    omega
  · rw [List.splitOn_eq_singleton (dot_not_mem_label hlabel)]
    exact List.forall_mem_singleton.mpr hlabel

/-- What is not a separator is in one of the parts. -/
theorem mem_splitOn {b : UInt8} (hb : b ∈ bytes) (hne : b ≠ dot) : ∃ part ∈ bytes.splitOn dot, b ∈ part := by
  have hjoined : ∀ parts : List Bytes, b ∈ [dot].intercalate parts → ∃ part ∈ parts, b ∈ part := by
    intro parts hmem
    unfold List.intercalate at hmem
    -- on the parts, joined by the separator
    induction parts with
    | nil => cases hmem
    | cons part parts ih =>
        cases parts with
        | nil => exact ⟨part, List.mem_singleton_self part, by simpa using hmem⟩
        | cons next parts =>
            rw [List.intersperse_cons_cons, List.flatten_cons, List.flatten_cons, List.mem_append,
              List.mem_append] at hmem
            rcases hmem with hmem | hmem | hmem
            · exact ⟨part, List.mem_cons_self, hmem⟩
            · exact absurd (List.mem_singleton.mp hmem) hne
            · obtain ⟨other, hother, hin⟩ := ih hmem
              exact ⟨other, List.mem_cons_of_mem part hother, hin⟩
  apply hjoined
  rw [List.intercalate_splitOn]
  exact hb

/-- **A full name consists of label bytes and dots**, and fits its buffer. -/
theorem validateFqdn_ok (h : validateFqdnSoroban name = .ok ()) :
    name.length ≤ maxFqdnLength ∧ ∀ b ∈ name, isLabelByte b = true ∨ b = dot := by
  obtain ⟨hfits, before, rfl, hlabels⟩ := validateFqdn_eq_ok.mp h
  refine ⟨hfits, ?_⟩
  intro b hb
  rw [List.mem_append, List.mem_cons] at hb
  rcases hb with hb | rfl | hb
  · by_cases hbdot : b = dot
    · exact Or.inr hbdot
    · obtain ⟨label, hlabel, hmem⟩ := mem_splitOn hb hbdot
      exact Or.inl (labelBytes_of_valid (hlabels label hlabel) b hmem)
  · exact Or.inr rfl
  · have hxlm : xlm.all isLabelByte = true := by decide
    exact Or.inl (List.all_eq_true.mp hxlm b hb)

/-- **Every name the builder makes passes the base-name check**, and so the full-name check. -/
theorem validateBaseName_buildXlmName (h : buildXlmName label = .ok name) : validateBaseNameSoroban name = .ok () := by
  obtain ⟨hlabel, hname⟩ := buildXlmName_eq_ok.mp h
  exact validateBaseName_eq_ok.mpr ⟨label, hlabel, hname⟩

/-- What is built from a label is a valid name. -/
theorem validateFqdn_buildXlmName (h : buildXlmName label = .ok name) : validateFqdnSoroban name = .ok () :=
  validateFqdn_of_baseName (validateBaseName_buildXlmName h)

/-- **A name lies below one base name**, whatever stands before it. -/
theorem base_unique {before before' p q : Bytes} (hp : validateBaseNameSoroban p = .ok ())
    (hq : validateBaseNameSoroban q = .ok ()) (h : before ++ dot :: p = before' ++ dot :: q) : p = q := by
  -- a base name has one dot
  obtain ⟨label, hlabel, rfl⟩ := validateBaseName_eq_ok.mp hp
  obtain ⟨label', hlabel', rfl⟩ := validateBaseName_eq_ok.mp hq
  have hlast : before ++ dot :: label = before' ++ dot :: label' := by
    have hcut : (before ++ dot :: label) ++ dot :: xlm = (before' ++ dot :: label') ++ dot :: xlm := by simpa using h
    exact List.append_cancel_right hcut
  rcases List.append_eq_append_iff.mp hlast with ⟨between, rfl, hrest⟩ | ⟨between, rfl, hrest⟩
  · rcases between with _ | ⟨b, between⟩
    · exact congrArg (· ++ dot :: xlm) (List.cons.inj hrest).2
    · -- a dot of the one label ends what is before the other
      obtain ⟨_, rfl⟩ := List.cons.inj hrest
      exact absurd (by simp) (dot_not_mem_label hlabel)
  · rcases between with _ | ⟨b, between⟩
    · exact congrArg (· ++ dot :: xlm) (List.cons.inj hrest).2.symm
    · obtain ⟨_, rfl⟩ := List.cons.inj hrest
      exact absurd (by simp) (dot_not_mem_label hlabel')

example : validateFqdnSoroban (ascii "pay.alice.xlm") = .ok () := by decide

example : validateFqdnSoroban (ascii "pay..xlm") = .error .nameTooShort := by decide

end XlmNs
