import XlmNs.Common.Grammar

/-!
# `Common.Building` — building names and taking them apart

`build_xlm_name` and `extract_label_soroban` are inverse to each other on labels and base names.
`build_subdomain_name` puts a label before a name and determines both, but checks their lengths one by one: the result
may be too long for every validator, and for `extract_label_soroban`.
-/

namespace XlmNs

open Soroban

variable {label name parent : Bytes}

/-! ## Taking apart -/

theorem extractLabel_eq_ok :
    extractLabelSoroban name = .ok label ↔
      validateFqdnSoroban name = .ok () ∧ ∃ rest, name = label ++ dot :: rest ∧ dot ∉ label := by
  unfold extractLabelSoroban
  simp only [check_eq_ok, copyBytes_eq_ok, position_eq_ok]
  constructor
  · rintro ⟨_, ⟨_, rfl⟩, _, ⟨before, rest, rfl, hbefore, rfl⟩, _, hvalid, hlabel⟩
    obtain rfl : before = label := by simpa using Except.ok.inj hlabel
    exact ⟨hvalid, rest, rfl, hbefore⟩
  · rintro ⟨hvalid, rest, rfl, hlabel⟩
    refine ⟨_, ⟨(validateFqdn_eq_ok.mp hvalid).1, rfl⟩, label.length, ⟨label, rest, rfl, hlabel, rfl⟩, (), hvalid, ?_⟩
    rw [List.take_left]
    rfl

/-- The first dot cuts a name in one way. -/
theorem cut_unique {label' parent' : Bytes} (hlabel : dot ∉ label) (hlabel' : dot ∉ label')
    (h : label ++ dot :: parent = label' ++ dot :: parent') : label = label' ∧ parent = parent' := by
  have hlen : label.length = label'.length := by
    have hfirst := findIdx?_dot.mpr ⟨label, parent, rfl, hlabel, rfl⟩
    rw [h] at hfirst
    exact Option.some.inj (hfirst.symm.trans (findIdx?_dot.mpr ⟨label', parent', rfl, hlabel', rfl⟩))
  obtain ⟨hleft, hright⟩ := List.append_inj h hlen
  exact ⟨hleft, (List.cons.inj hright).2⟩

/-! ## Below a name -/

/-- **Labels before a valid name** make a valid name if they are labels and all fits. -/
theorem validateFqdn_below (hparent : validateFqdnSoroban parent = .ok ()) :
    validateFqdnSoroban (label ++ dot :: parent) = .ok () ↔
      label.length + 1 + parent.length ≤ maxFqdnLength ∧
        ∀ part ∈ label.splitOn dot, validateLabelBytes part = .ok () := by
  obtain ⟨_, before, rfl, hlabels⟩ := validateFqdn_eq_ok.mp hparent
  have hlength : (label ++ dot :: (before ++ dot :: xlm)).length = label.length + 1 + (before ++ dot :: xlm).length := by
    rw [List.length_append, List.length_cons]
    omega
  have hassoc : label ++ dot :: (before ++ dot :: xlm) = (label ++ dot :: before) ++ dot :: xlm := by simp
  have hsplit : (label ++ dot :: before).splitOn dot = label.splitOn dot ++ before.splitOn dot :=
    List.splitOn_append_cons_self _ _
  rw [validateFqdn_eq_ok, hlength]
  apply and_congr_right
  intro _
  rw [hassoc]
  constructor
  · rintro ⟨before', hname, hparts⟩ part hpart
    obtain rfl := List.append_cancel_right hname
    rw [hsplit] at hparts
    exact hparts part (List.mem_append_left _ hpart)
  · intro hparts
    refine ⟨label ++ dot :: before, rfl, ?_⟩
    rw [hsplit]
    intro part hpart
    rcases List.mem_append.mp hpart with hpart | hpart
    · exact hparts part hpart
    · exact hlabels part hpart

theorem buildSubdomainName_eq_ok :
    buildSubdomainName label parent = .ok name ↔
      validateLabelBytes label = .ok () ∧ validateFqdnSoroban parent = .ok () ∧ name = label ++ dot :: parent := by
  unfold buildSubdomainName
  simp only [check_eq_ok, copyBytes_eq_ok]
  constructor
  · rintro ⟨_, ⟨_, rfl⟩, _, hlabel, _, hparent, ⟨⟩⟩
    exact ⟨hlabel, hparent, rfl⟩
  · rintro ⟨hlabel, hparent, rfl⟩
    exact ⟨label, ⟨length_label hlabel, rfl⟩, (), hlabel, (), hparent, rfl⟩

/-! ## Round trips -/

/-- A label becomes a base name, and is read back from it. -/
theorem label_read_back (h : validateLabelSoroban label = .ok ()) :
    ∃ name, buildXlmName label = .ok name ∧ validateBaseNameSoroban name = .ok () ∧
      extractLabelSoroban name = .ok label := by
  have hlabel := validateLabelSoroban_eq_ok.mp h
  have hbuild : buildXlmName label = .ok (label ++ dot :: xlm) := buildXlmName_eq_ok.mpr ⟨hlabel, rfl⟩
  refine ⟨_, hbuild, validateBaseName_buildXlmName hbuild, ?_⟩
  exact extractLabel_eq_ok.mpr ⟨validateFqdn_buildXlmName hbuild, xlm, rfl, dot_not_mem_label hlabel⟩

/-- A base name is built again from its label. -/
theorem baseName_rebuilt (h : validateBaseNameSoroban name = .ok ()) :
    ∃ label, extractLabelSoroban name = .ok label ∧ buildXlmName label = .ok name := by
  obtain ⟨label, hlabel, rfl⟩ := validateBaseName_eq_ok.mp h
  refine ⟨label, ?_, buildXlmName_eq_ok.mpr ⟨hlabel, rfl⟩⟩
  exact extractLabel_eq_ok.mpr ⟨validateFqdn_of_baseName h, xlm, rfl, dot_not_mem_label hlabel⟩

/-- **What is asked of a subdomain name**: it is a valid full name, its first label is read back, and no other label and
    parent build it. -/
structure ReadBack (label parent name : Bytes) : Prop where
  valid      : validateFqdnSoroban name = .ok ()
  label_eq   : extractLabelSoroban name = .ok label
  determined : ∀ label' parent', buildSubdomainName label' parent' = .ok name → label' = label ∧ parent' = parent

theorem readBack_iff (h : buildSubdomainName label parent = .ok name) :
    ReadBack label parent name ↔ label.length + 1 + parent.length ≤ maxFqdnLength := by
  obtain ⟨hlabel, hparent, rfl⟩ := buildSubdomainName_eq_ok.mp h
  have hdot := dot_not_mem_label hlabel
  have hvalid : validateFqdnSoroban (label ++ dot :: parent) = .ok () ↔
      label.length + 1 + parent.length ≤ maxFqdnLength := by
    rw [validateFqdn_below hparent, List.splitOn_eq_singleton hdot, List.forall_mem_singleton]
    exact and_iff_left hlabel
  constructor
  · intro hread
    exact hvalid.mp hread.valid
  · intro hfits
    refine ⟨hvalid.mpr hfits, extractLabel_eq_ok.mpr ⟨hvalid.mpr hfits, parent, rfl, hdot⟩, ?_⟩
    intro label' parent' hbuilt
    obtain ⟨hlabel', _, hname⟩ := buildSubdomainName_eq_ok.mp hbuilt
    obtain ⟨rfl, rfl⟩ := cut_unique hdot (dot_not_mem_label hlabel') hname
    exact ⟨rfl, rfl⟩

/-- The builders and the parser copy into arrays that hold what they accept: none of them panics. -/
theorem arrays_large_enough (label parent : Bytes) :
    buildXlmNameBuffered label ≠ .error .trap ∧ buildSubdomainNameBuffered label parent ≠ .error .trap ∧
      extractLabelBuffered parent ≠ .error .trap := by
  rw [buildXlmNameBuffered_eq, buildSubdomainNameBuffered_eq, extractLabelBuffered_eq]
  exact ⟨passOn_ne_trap, passOn_ne_trap, passOn_ne_trap⟩

/-- **Building and parsing**: labels and base names are built and read back for all inputs; a subdomain name is read
    back exactly when label, dot and parent together fit the 68 bytes of a name. -/
theorem building_and_parsing (label parent name : Bytes) :
    (validateLabelSoroban label = .ok () →
      ∃ base, buildXlmName label = .ok base ∧ validateBaseNameSoroban base = .ok () ∧
        extractLabelSoroban base = .ok label) ∧
    (validateBaseNameSoroban name = .ok () → ∃ first, extractLabelSoroban name = .ok first ∧ buildXlmName first = .ok name) ∧
    (buildSubdomainName label parent = .ok name →
      (ReadBack label parent name ↔ label.length + 1 + parent.length ≤ 68)) :=
  ⟨label_read_back, baseName_rebuilt, readBack_iff⟩

/-- A label of 64 bytes before a base name: the longest the builder makes of two valid parts is not a name. -/
theorem long_subdomain_name_rejected :
    ∃ name, buildSubdomainName (List.replicate 64 97) (ascii "alice.xlm") = .ok name ∧
      validateFqdnSoroban name = .error .nameTooLong ∧ extractLabelSoroban name = .error .nameTooLong := by
  refine ⟨List.replicate 64 97 ++ dot :: ascii "alice.xlm", ?_, ?_, ?_⟩
  · decide +kernel
  · decide +kernel
  · decide +kernel

end XlmNs
