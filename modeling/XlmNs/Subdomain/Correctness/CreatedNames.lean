import XlmNs.Common.Building
import XlmNs.Subdomain.Correctness.Indexes

/-!
# `Subdomain.Correctness.CreatedNames` — are the names of subdomains names?

`create` puts its label, a dot and the parent together and counts the dots. What it returns is a full name, with no more
labels before the parent than allowed, exactly when every part of the label is a label and all fits the 68 bytes of a
name (`created_name_iff`); of the parent nothing more is needed, as only base names are registered as parents.
-/

namespace XlmNs.Subdomain

open Soroban

variable {ω : Type} {out : Outside ω} {env : Env} {s s' : State} {w : ω}
variable {label p fqdn : Bytes} {caller owner : Address} {nowUnix : UInt64}

/-- **What is asked of a created name**: every validator of full names accepts it, and between one and `maxDepth` labels
    stand before the parent. -/
structure GoodName (maxDepth : UInt32) (p fqdn : Bytes) : Prop where
  valid : validateFqdnSoroban fqdn = .ok ()
  below : ∃ labels, (∀ label ∈ labels, dot ∉ label) ∧ fqdn = joined (labels ++ [p]) ∧
    1 ≤ labels.length ∧ labels.length ≤ maxDepth.toNat

/-- A label of labels, short enough for its parent. -/
structure GoodLabel (p label : Bytes) : Prop where
  fits  : label.length + 1 + p.length ≤ maxFqdnLength
  parts : ∀ part ∈ label.splitOn dot, validateLabelSoroban part = .ok ()

/-- The dots of a label are counted unless it is empty. -/
theorem create_depth (h : create out env s w label p caller owner nowUnix = .ok (s', fqdn)) :
    label ≠ [] → 1 + label.count dot ≤ (maxDepth s).toNat := by
  simp only [create, bind_eq_ok, require_eq_ok, bufferSlice_eq_ok, exists_const] at h
  obtain ⟨_, _, _, _, _, _, _, hdepth, _⟩ := h
  exact hdepth

theorem validateFqdn_goodLabel (hp : validateFqdnSoroban p = .ok ()) :
    validateFqdnSoroban (label ++ dot :: p) = .ok () ↔ GoodLabel p label := by
  rw [validateFqdn_below hp]
  constructor
  · rintro ⟨hfits, hparts⟩
    exact ⟨hfits, fun part hpart => validateLabelSoroban_eq_ok.mpr (hparts part hpart)⟩
  · rintro ⟨hfits, hparts⟩
    exact ⟨hfits, fun part hpart => validateLabelSoroban_eq_ok.mp (hparts part hpart)⟩

/-- The parts of a label are one more than its dots. -/
theorem length_splitOn (label : Bytes) : (label.splitOn dot).length = 1 + label.count dot := by
  induction label with
  | nil => rfl
  | cons b label ih =>
      rw [List.splitOn_cons_eq_if_modifyHead, List.count_cons]
      split
      · rw [List.length_cons, ih]
        omega
      · rw [List.length_modifyHead, ih]
        omega

theorem goodName_iff (hindexed : Indexed s) (h : create out env s w label p caller owner nowUnix = .ok (s', fqdn)) :
    GoodName (maxDepth s) p fqdn ↔ GoodLabel p label := by
  obtain ⟨⟨rec, hadmitted⟩, rfl, _, _⟩ := create_ok h
  have hp : validateFqdnSoroban p = .ok () := validateFqdn_of_baseName (hindexed.base p rec hadmitted.found)
  constructor
  · intro hname
    exact (validateFqdn_goodLabel hp).mp hname.valid
  · intro hlabel
    have hparts : label.splitOn dot ≠ [] := List.splitOn_ne_nil _ _
    have hne : label ≠ [] := by
      rintro rfl
      exact absurd (hlabel.parts [] (List.mem_singleton_self _)) (by decide)
    refine ⟨(validateFqdn_goodLabel hp).mpr hlabel, label.splitOn dot, ?_, ?_, ?_, ?_⟩
    · intro part hpart
      exact dot_not_mem_label (validateLabelSoroban_eq_ok.mp (hlabel.parts part hpart))
    · rw [joined_snoc hparts, joined_splitOn]
    · exact List.length_pos_of_ne_nil hparts
    · rw [length_splitOn]
      exact create_depth h hne

/-- **A created name is a valid name exactly when its label is made of labels and all fits**: in every state the contract
    reaches, whatever the registries asked say from one call to the next, and for all arguments. -/
theorem created_name_iff (out : Outside ω) (ts : List (ω × Tx Call)) (env : Env) (w : ω) (label p fqdn : Bytes)
    (caller owner : Address) (nowUnix : UInt64) (s' : State)
    (h : create out env (run (inWorlds (step out)) State.empty ts) w label p caller owner nowUnix = .ok (s', fqdn)) :
    GoodName (maxDepth (run (inWorlds (step out)) State.empty ts)) p fqdn ↔
      label.length + 1 + p.length ≤ 68 ∧ ∀ part ∈ label.splitOn dot, validateLabelSoroban part = .ok () := by
  have hiff := goodName_iff ((preserves_indexed out).run ts indexed_empty) h
  exact hiff.trans ⟨fun hlabel => ⟨hlabel.fits, hlabel.parts⟩, fun ⟨hfits, hparts⟩ => ⟨hfits, hparts⟩⟩

namespace UnvalidatedLabel

open Cast

/-- Alice registers her name as a parent. -/
def founding : List (Unit × Tx Call) :=
  [((), ⟨⟨1000, [alice], none⟩, .registerParent aliceXlm alice⟩)]

/-- The contract after that. -/
def founded : State := run (inWorlds (step nothingOutside)) State.empty founding

/-- **She creates a name that is none**: the label is taken as it is, capitals and all. -/
theorem capitals_created :
    (create nothingOutside ⟨1000, [alice], none⟩ founded () (ascii "PAY") aliceXlm alice alice 1000).map Prod.snd
        = .ok (ascii "PAY.alice.xlm") ∧
      validateFqdnSoroban (ascii "PAY.alice.xlm") = .error .invalidCharacters := by
  constructor
  · decide +kernel
  · decide +kernel

/-- In small letters the name is good. -/
theorem small_letters_good : GoodName (maxDepth founded) aliceXlm payAliceXlm := by
  have hcreate : ∃ s', create nothingOutside ⟨1000, [alice], none⟩ founded () (ascii "pay") aliceXlm alice alice 1000
      = .ok (s', ascii "pay.alice.xlm") := ⟨_, by rfl⟩
  obtain ⟨s', hcreate⟩ := hcreate
  refine (created_name_iff nothingOutside founding _ () _ _ _ alice alice 1000 s' hcreate).mpr ⟨by decide, ?_⟩
  decide +kernel

end UnvalidatedLabel

end XlmNs.Subdomain
