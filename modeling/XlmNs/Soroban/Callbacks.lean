import XlmNs.Soroban.Machine

/-!
# `Soroban.Callbacks` — machines that are called back

A step of the machine may call out, and what it calls may call the machine again before it returns. The call out is a
parameter of the step (`enter f`), and `Reenters` says what it can come back with: any number of steps of the machine,
each with calls out of its own, and changes of what is not the machine's. A failing step is rolled back and shows
nowhere.

## Contents
- `Reenters.rule`, `AsMade.run`: a relation that steps carry when their calls out do (`Carried`) is carried by every call
  out, at any depth, and by whole runs.
- `AsMade`: what a step's calls out did, looking only at those it made.
- `along_asMade`: if something that cannot be regained is still there after a run, every call out made in the run has
  kept what keeping it takes.
-/

namespace Soroban

variable {κ σ τ ε : Type}

/-- A call out with its arguments, as a partial function on the state; `none` is a call that fails. -/
abbrev Callback (κ σ : Type) := κ → σ → Option σ

/-- **What a call out can come back with.** The steps made before it returns satisfy `Q`. -/
inductive Reenters (enter : Callback κ σ → σ → τ → Except ε σ) (World : σ → σ → Prop)
    (Q : Callback κ σ → σ → τ → Prop) : σ → σ → Prop
  | refl (s : σ) : Reenters enter World Q s s
  /-- something else changes -/
  | world {s s₁ s₂ : σ} (before : Reenters enter World Q s s₁) (hworld : World s₁ s₂) : Reenters enter World Q s s₂
  /-- the machine is called, with calls out that do the same -/
  | call {s s₁ s₂ : σ} {f : Callback κ σ} {t : τ} (before : Reenters enter World Q s s₁)
      (inner : ∀ k u u', f k u = some u' → Reenters enter World Q u u') (hQ : Q f s₁ t)
      (hok : enter f s₁ t = .ok s₂) : Reenters enter World Q s s₂

/-- Whenever the call out returns, it comes back so. -/
def Reentrant (enter : Callback κ σ → σ → τ → Except ε σ) (World : σ → σ → Prop) (Q : Callback κ σ → σ → τ → Prop)
    (f : Callback κ σ) : Prop :=
  ∀ k s s', f k s = some s' → Reenters enter World Q s s'

/-- A relation that a step carries from its start to its end whenever its calls out do. -/
structure Carried (enter : Callback κ σ → σ → τ → Except ε σ) (World : σ → σ → Prop) (Q : Callback κ σ → σ → τ → Prop)
    (R : σ → σ → Prop) : Prop where
  refl  : ∀ s, R s s
  trans : ∀ {s s₁ s₂}, R s s₁ → R s₁ s₂ → R s s₂
  world : ∀ {s s'}, World s s' → R s s'
  call  : ∀ {f s t s'}, (∀ k u u', f k u = some u' → R u u') → Q f s t → enter f s t = .ok s' → R s s'

variable {enter : Callback κ σ → σ → τ → Except ε σ} {World : σ → σ → Prop} {Q Q' : Callback κ σ → σ → τ → Prop}
variable {f : Callback κ σ} {R : σ → σ → Prop} {I Good : σ → Prop} {s s' : σ} {v : Callback κ σ × τ}
variable {vs : List (Callback κ σ × τ)}

/-- **Rule for relations.** -/
theorem Reenters.rule (hR : Carried enter World Q R) (h : Reenters enter World Q s s') : R s s' := by
  induction h with
  | refl s => exact hR.refl s
  | world _ hw ih => exact hR.trans ih (hR.world hw)
  | call _ _ hQ hok ih inner => exact hR.trans ih (hR.call inner hQ hok)

/-- A call out that only changes what is not the machine's. -/
theorem Reentrant.of_world (h : ∀ k s s', f k s = some s' → World s s') : Reentrant enter World Q f := by
  intro k s s' hf
  exact .world (.refl s) (h k s s' hf)

/-! ## Steps and runs, with the calls out they made -/

/-- **A step, with the calls out it made**: some part `f` of the calls out is enough for it; `f` comes back by steps that
    satisfy `Q`, and so does the step. What a call out would have done elsewhere does not matter. -/
def AsMade (enter : Callback κ σ → σ → τ → Except ε σ) (World : σ → σ → Prop) (Q : Callback κ σ → σ → τ → Prop)
    (s : σ) (v : Callback κ σ × τ) : Prop :=
  ∀ s', enter v.1 s v.2 = .ok s' → ∃ f : Callback κ σ, (∀ k u u', f k u = some u' → v.1 k u = some u') ∧
    Reentrant enter World Q f ∧ Q f s v.2 ∧ enter f s v.2 = .ok s'

/-- A transaction of the machine brings the calls out it will find. -/
def enterWith (enter : Callback κ σ → σ → τ → Except ε σ) (s : σ) (v : Callback κ σ × τ) : Except ε σ := enter v.1 s v.2

/-- All of the calls out are enough. -/
theorem AsMade.of_reentrant (hf : Reentrant enter World Q v.1) (hQ : Q v.1 s v.2) : AsMade enter World Q s v :=
  fun _ hok => ⟨v.1, fun _ _ _ => id, hf, hQ, hok⟩

theorem AsMade.exec (hR : Carried enter World Q R) (h : AsMade enter World Q s v) : R s (exec (enterWith enter) s v) := by
  apply exec_of_ok (hR.refl s)
  intro s' hok
  obtain ⟨f, _, hf, hQ, hstep⟩ := h s' hok
  exact hR.call (fun k u u' hret => (hf k u u' hret).rule hR) hQ hstep

/-- **Run rule.** What a carried relation takes along is kept by every run. -/
theorem AsMade.run (hR : Carried enter World Q R) (hI : ∀ {s s'}, I s → R s s' → I s') (h : I s)
    (hvs : Along (enterWith enter) (AsMade enter World Q) s vs) : I (run (enterWith enter) s vs) :=
  Along.run_invariant I (fun _ _ hs hv => hI hs (hv.exec hR)) h hvs

/-! ## What cannot be regained -/

open Classical in
/-- The answers of a call out that satisfy `P`. -/
noncomputable def Callback.within (f : Callback κ σ) (P : σ → σ → Prop) : Callback κ σ :=
  fun k s => (f k s).filter fun s' => decide (P s s')

theorem Callback.within_eq_some {P : σ → σ → Prop} {k : κ} :
    Callback.within f P k s = some s' ↔ f k s = some s' ∧ P s s' := by
  simp [Callback.within, Option.filter_eq_some_iff]

/-- Where `Good` is not lost, a step needs only the answers that do not lose it, and then satisfies `Q'`. -/
def Suffices (enter : Callback κ σ → σ → τ → Except ε σ) (Q Q' : Callback κ σ → σ → τ → Prop) (R : σ → σ → Prop)
    (I Good : σ → Prop) : Prop :=
  ∀ {f s t s'}, (∀ k u u', f k u = some u' → R u u') → Q f s t → enter f s t = .ok s' → I s → Good s' →
    Q' (Callback.within f fun u u' => I u ∧ Good u') s t ∧
      enter (Callback.within f fun u u' => I u ∧ Good u') s t = .ok s'

/-- **Rule for what cannot be regained.** A call out that comes back with `Good` came back by steps that satisfy `Q'`. -/
theorem Reenters.refine (hR : Carried enter World Q R) (hI : ∀ {s s'}, I s → R s s' → I s')
    (hGood : ∀ {s s'}, R s s' → Good s' → Good s) (hstep : Suffices enter Q Q' R I Good)
    (h : Reenters enter World Q s s') (hs : I s) (hgood : Good s') : Reenters enter World Q' s s' := by
  induction h with
  | refl s => exact .refl s
  | world _ hw ih => exact .world (ih hs (hGood (hR.world hw) hgood)) hw
  | @call s s₁ s₂ f t before inner hQ hok ih hinner =>
      have hcalls : ∀ k u u', f k u = some u' → R u u' := fun k u u' hret => (inner k u u' hret).rule hR
      have hgood₁ : Good s₁ := hGood (hR.call hcalls hQ hok) hgood
      obtain ⟨hQ', hok'⟩ := hstep hcalls hQ hok (hI hs (before.rule hR)) hgood
      refine .call (ih hs hgood₁) ?_ hQ' hok'
      intro k u u' hret
      obtain ⟨hf, hu, hu'⟩ := Callback.within_eq_some.mp hret
      exact hinner k u u' hf hu hu'

/-- **Run rule for what cannot be regained.** -/
theorem along_asMade (hR : Carried enter World Q R) (hI : ∀ {s s'}, I s → R s s' → I s')
    (hGood : ∀ {s s'}, R s s' → Good s' → Good s) (hstep : Suffices enter Q Q' R I Good) (hs : I s)
    (hvs : Along (enterWith enter) (fun s v => Reentrant enter World Q v.1 ∧ Q v.1 s v.2) s vs)
    (hgood : Good (run (enterWith enter) s vs)) : Along (enterWith enter) (AsMade enter World Q') s vs := by
  induction vs generalizing s with
  | nil => trivial
  | cons v vs ih =>
      obtain ⟨⟨hf, hQ⟩, hrest⟩ := hvs
      have hmade : AsMade enter World Q s v := .of_reentrant hf hQ
      have hsrest : Along (enterWith enter) (AsMade enter World Q) (exec (enterWith enter) s v) vs :=
        hrest.imp fun _ _ h => .of_reentrant h.1 h.2
      have hafter : Good (exec (enterWith enter) s v) :=
        hGood (AsMade.run (I := R _) hR (fun h h' => hR.trans h h') (hR.refl _) hsrest) hgood
      refine ⟨?_, ih (hI hs (hmade.exec hR)) hrest hgood⟩
      intro s' hok
      have hcalls : ∀ k u u', v.1 k u = some u' → R u u' := fun k u u' hret => (hf k u u' hret).rule hR
      have hend : exec (enterWith enter) s v = s' := exec_ok hok
      rw [hend] at hafter
      obtain ⟨hQ', hok'⟩ := hstep hcalls hQ hok hs hafter
      refine ⟨_, fun k u u' hret => (Callback.within_eq_some.mp hret).1, ?_, hQ', hok'⟩
      intro k u u' hret
      obtain ⟨hret', hu, hu'⟩ := Callback.within_eq_some.mp hret
      exact (hf k u u' hret').refine hR hI hGood hstep hu hu'

end Soroban
