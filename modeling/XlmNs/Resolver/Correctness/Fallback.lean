import XlmNs.Common.Grammar
import XlmNs.Resolver.Contract

/-!
# `Resolver.Correctness.Fallback` — a name without a record is served by its nearest ancestor

`resolve_with_fallback` walks up from a name, one label at a time, to the first name with a record. Here the names on
the way are listed at once (`lineage`), the walk is a search in the list (`resolveFrom_eq`), and the loop of the source,
with its counter of hops and without a bound on its turns, ends after as many turns as the name has labels, whatever
limit the subdomain contract returned (`fallbackLoop_ends`).
-/

namespace XlmNs.Resolver

open Soroban

variable {ω : Type} {s : State} {name current : Bytes} {maxHops : UInt32}

/-! ## The names on the way up -/

/-- The names that are left when labels are taken away from the left, one after another. -/
def suffixes : List Bytes → List Bytes
  | []              => []
  | label :: labels => joined (label :: labels) :: suffixes labels

/-- The name, its parent, the parent of that, and so on. -/
def lineage (name : Bytes) : List Bytes := suffixes (name.splitOn dot)

/-- **The labels of a name that can be walked up**: none has a dot in it, the last one is not empty, and the name fits
    the buffer of `parent_name`. -/
structure Walkable (labels : List Bytes) : Prop where
  nonempty : labels ≠ []
  dotless  : ∀ label ∈ labels, dot ∉ label
  filled   : ∀ label ∈ labels, label ≠ []
  fits     : (joined labels).length ≤ 256

theorem Walkable.tail {label next : Bytes} {labels : List Bytes} (h : Walkable (label :: next :: labels)) :
    Walkable (next :: labels) where
  nonempty := List.cons_ne_nil _ _
  dotless l hl := h.dotless l (List.mem_cons_of_mem _ hl)
  filled l hl := h.filled l (List.mem_cons_of_mem _ hl)
  fits := by
    have hfits := h.fits
    rw [joined_cons, List.length_append, List.length_cons] at hfits
    omega

theorem Walkable.joined_ne_nil {labels : List Bytes} (h : Walkable labels) : joined labels ≠ [] := by
  cases labels with
  | nil => exact absurd rfl h.nonempty
  | cons label rest =>
      have hlabel := h.filled label List.mem_cons_self
      cases rest with
      | nil =>
          rw [joined_singleton]
          exact hlabel
      | cons next rest =>
          rw [joined_cons]
          simp

/-- The last label has no parent. -/
theorem parentName_single {label : Bytes} (h : Walkable [label]) : parentName (joined [label]) = none := by
  have hnone : label.findIdx? (· == dot) = none := by
    rw [List.findIdx?_eq_none_iff]
    intro b hb
    have hne : b ≠ dot := fun hdot => h.dotless label List.mem_cons_self (hdot ▸ hb)
    simpa using hne
  unfold parentName
  simp only [joined_singleton, hnone]
  split
  · rfl
  · rfl

/-- **The parent of any other name** is what its other labels name. -/
theorem parentName_joined {label next : Bytes} {labels : List Bytes} (h : Walkable (label :: next :: labels)) :
    parentName (joined (label :: next :: labels)) = some (joined (next :: labels)) := by
  have hfits := h.fits
  have hcut : (label ++ dot :: joined (next :: labels)).findIdx? (· == dot) = some label.length :=
    findIdx?_dot.mpr ⟨label, joined (next :: labels), rfl, h.dotless label List.mem_cons_self, rfl⟩
  have hparent : joined (next :: labels) ≠ [] := h.tail.joined_ne_nil
  rw [joined_cons] at hfits ⊢
  unfold parentName
  rw [if_neg (by simp only [List.length_append, List.length_cons] at hfits ⊢; omega), hcut]
  simp [hparent]

/-- The labels of a valid name. -/
theorem walkable_of_valid (h : validateFqdnSoroban name = .ok ()) : Walkable (name.splitOn dot) := by
  obtain ⟨hfits, before, rfl, hlabels⟩ := validateFqdn_eq_ok.mp h
  have hsplit : (before ++ dot :: xlm).splitOn dot = before.splitOn dot ++ [xlm] := by
    rw [List.splitOn_append_cons_self, List.splitOn_eq_singleton dot_not_mem_xlm]
  refine ⟨List.splitOn_ne_nil _ _, ?_, ?_, ?_⟩
  · intro label hlabel
    rw [hsplit, List.mem_append, List.mem_singleton] at hlabel
    rcases hlabel with hlabel | rfl
    · exact dot_not_mem_label (hlabels label hlabel)
    · exact dot_not_mem_xlm
  · intro label hlabel
    rw [hsplit, List.mem_append, List.mem_singleton] at hlabel
    rcases hlabel with hlabel | rfl
    · rintro rfl
      cases hlabels [] hlabel
    · exact List.cons_ne_nil _ _
  · rw [joined_splitOn]
    exact hfits.trans (by decide)

/-! ## The walk is a search -/

/-- The first name in a list that has a record. -/
def nearest (s : State) (names : List Bytes) : Option Bytes := names.find? (fun n => (s.forward n).isSome)

/-- What the name found says: the record of the name itself, an ancestor's unless its wildcard flag is disabled, and
    nothing else. -/
def served (s : State) (name : Bytes) (found : Option Bytes) : Option (ResolutionRecord × Bool) := do
  let ancestor ← found
  let record ← s.forward ancestor
  if ancestor = name then some (record, false)
  else if s.wildcard ancestor = some false then none
  else some (record, true)

theorem wildcardResolutionEnabled_iff : wildcardResolutionEnabled s name = true ↔ s.wildcard name ≠ some false := by
  unfold wildcardResolutionEnabled
  cases s.wildcard name with
  | none => simp
  | some enabled => cases enabled <;> simp

/-- What the loop returns when it finds a record. -/
theorem served_here {record : ResolutionRecord} (h : s.forward current = some record) :
    served s name (some current)
      = if current = name then some (record, false)
        else if wildcardResolutionEnabled s current then some (record, true)
        else none := by
  simp only [served, h, Option.bind_eq_bind, Option.bind_some, wildcardResolutionEnabled_iff, ite_not, ne_eq]

/-- **The walk from a name** with `hops` hops left finds the nearest of the next `hops + 1` names. -/
theorem resolveFrom_eq {labels : List Bytes} (h : Walkable labels) (hops : Nat) :
    resolveFrom s name hops (joined labels) = served s name (nearest s ((suffixes labels).take (hops + 1))) := by
  induction labels generalizing hops with
  | nil => exact absurd rfl h.nonempty
  | cons label rest ih =>
      rw [suffixes, List.take_succ_cons, nearest, List.find?_cons]
      cases hrecord : s.forward (joined (label :: rest)) with
      | some record =>
          rw [Option.isSome_some, served_here hrecord]
          unfold resolveFrom
          rw [hrecord]
      | none =>
          rw [Option.isSome_none]
          cases hops with
          | zero =>
              unfold resolveFrom
              rw [hrecord]
              rfl
          | succ hops =>
              unfold resolveFrom
              rw [hrecord]
              cases rest with
              | nil =>
                  rw [parentName_single h]
                  rfl
              | cons next rest =>
                  rw [parentName_joined h]
                  exact ih h.tail hops

/-! ## The loop -/

/-- One turn of the loop of `resolve_with_fallback`: the answer, or the name and the counter of the next turn. -/
def fallbackTurn (s : State) (name : Bytes) (maxHops : UInt32) (current : Bytes) (hops : UInt32) :
    Option (ResolutionRecord × Bool) ⊕ (Bytes × UInt32) :=
  match s.forward current with
  | some record =>
      if current = name then .inl (some (record, false))
      else if wildcardResolutionEnabled s current then .inl (some (record, true))
      else .inl none
  | none =>
      if maxHops ≤ hops then .inl none
      else
        match parentName current with
        | none        => .inl none
        | some parent => .inr (parent, hops + 1)

/-- The loop, for a number of turns; `none` if it has not ended by then. -/
def fallbackLoop (s : State) (name : Bytes) (maxHops : UInt32) :
    Nat → Bytes → UInt32 → Option (Option (ResolutionRecord × Bool))
  | 0, _, _ => none
  | turns + 1, current, hops =>
      match fallbackTurn s name maxHops current hops with
      | .inl answer         => some answer
      | .inr (parent, hops) => fallbackLoop s name maxHops turns parent hops

/-- **The loop ends** after at most as many turns as the current name has labels, whatever the limit, with what the
    walk with the hops still allowed finds. -/
theorem fallbackLoop_ends {labels : List Bytes} (h : Walkable labels) {hops : UInt32} (hhops : hops ≤ maxHops)
    {turns : Nat} (hturns : labels.length ≤ turns) :
    fallbackLoop s name maxHops turns (joined labels) hops
      = some (resolveFrom s name (maxHops.toNat - hops.toNat) (joined labels)) := by
  induction labels generalizing hops turns with
  | nil => exact absurd rfl h.nonempty
  | cons label rest ih =>
      obtain ⟨turns, rfl⟩ : ∃ n, turns = n + 1 := ⟨turns - 1, by simp only [List.length_cons] at hturns; omega⟩
      unfold fallbackLoop fallbackTurn resolveFrom
      cases hrecord : s.forward (joined (label :: rest)) with
      | some record =>
          by_cases hsame : joined (label :: rest) = name
          · simp only [if_pos hsame]
          · by_cases hon : wildcardResolutionEnabled s (joined (label :: rest)) = true
            · simp only [if_neg hsame, if_pos hon]
            · simp only [if_neg hsame, if_neg hon]
      | none =>
          dsimp only
          by_cases hlast : maxHops ≤ hops
          · -- the counter has reached the limit
            have hzero : maxHops.toNat - hops.toNat = 0 := Nat.sub_eq_zero_of_le (UInt32.le_iff_toNat_le.mp hlast)
            rw [if_pos hlast, hzero]
          · have hlt : hops.toNat < maxHops.toNat := UInt32.lt_iff_toNat_lt.mp (UInt32.not_le.mp hlast)
            have hbound := toNat_le_u32Max maxHops
            have hnext : (hops + 1).toNat = hops.toNat + 1 := by
              rw [UInt32.toNat_add]
              exact Nat.mod_eq_of_lt (by simp only [u32Max, UInt32.size] at hbound; simp; omega)
            have hleft : maxHops.toNat - hops.toNat = maxHops.toNat - (hops + 1).toNat + 1 := by omega
            rw [if_neg hlast, hleft]
            cases rest with
            | nil => rw [parentName_single h]
            | cons next rest =>
                rw [parentName_joined h]
                refine ih h.tail (UInt32.le_iff_toNat_le.mpr (by omega)) ?_
                simp only [List.length_cons] at hturns ⊢
                omega

/-- **Wildcard fallback**, for every valid name, every state and every limit the subdomain contract may return (or the
    default): the loop ends after as many turns as the name has labels, and `resolve` serves the nearest of the name and
    its ancestors, up to the limit, that has a record. -/
theorem wildcard_fallback (out : Outside ω) (s : State) (w : ω) (name : Bytes) (h : validateFqdnSoroban name = .ok ()) :
    (∀ turns, (name.splitOn dot).length ≤ turns →
      fallbackLoop s name (fallbackDepthLimit out s w) turns name 0
        = some (served s name (nearest s ((lineage name).take ((fallbackDepthLimit out s w).toNat + 1))))) ∧
    resolve out s w name
      = (served s name (nearest s ((lineage name).take ((fallbackDepthLimit out s w).toNat + 1)))).map
          (fun (record, isWildcard) => { record with isWildcard }) := by
  have hname : joined (name.splitOn dot) = name := joined_splitOn name
  have hwalk : resolveFrom s name (fallbackDepthLimit out s w).toNat name
      = served s name (nearest s ((lineage name).take ((fallbackDepthLimit out s w).toNat + 1))) := by
    have hfrom : resolveFrom s name (fallbackDepthLimit out s w).toNat (joined (name.splitOn dot)) = _ :=
      resolveFrom_eq (walkable_of_valid h) _
    rw [hname] at hfrom
    exact hfrom
  constructor
  · intro turns hturns
    have hloop : fallbackLoop s name (fallbackDepthLimit out s w) turns (joined (name.splitOn dot)) 0 = _ :=
      fallbackLoop_ends (walkable_of_valid h) (UInt32.le_iff_toNat_le.mpr (Nat.zero_le _)) hturns
    rw [hname] at hloop
    rw [hloop, ← hwalk]
    rfl
  · rw [← hwalk]
    unfold resolve resolveWithFallback
    rw [h]

namespace Wildcard

open Cast

/-- Alice's record, without addresses. -/
def record : ResolutionRecord := ⟨alice, ∅, ∅, 1000, false⟩

/-- Only `alice.xlm` has a record. -/
def oneRecord : State := putRecord State.empty aliceXlm record

/-- The same with its wildcard flag disabled. -/
def flagged : State := { oneRecord with wildcard := oneRecord.wildcard.set aliceXlm false }

/-- Two labels below it the record serves as a wildcard, unless the flag is disabled. -/
theorem pay_alice_served :
    resolve nothingOutside oneRecord () (ascii "now.pay.alice.xlm") = some { record with isWildcard := true } ∧
      resolve nothingOutside flagged () (ascii "now.pay.alice.xlm") = none := by
  have hvalid : validateFqdnSoroban (ascii "now.pay.alice.xlm") = .ok () := by decide +kernel
  constructor
  · rw [(wildcard_fallback nothingOutside oneRecord () _ hvalid).2]
    rfl
  · rw [(wildcard_fallback nothingOutside flagged () _ hvalid).2]
    rfl

end Wildcard

end XlmNs.Resolver
