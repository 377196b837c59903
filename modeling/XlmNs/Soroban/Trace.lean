import XlmNs.Soroban.Machine

/-!
# `Soroban.Trace` — what an observer sees of a run

`trace obs s ts` lists what `obs` shows of each transaction of a run. Two runs of the same transactions from different
states are compared by a relation between their states, indexed by a history of the first run: as long as every step
is *unnoticed*, the relation is kept and both show the same, and the first step that is noticed shows a difference
(`trace_eq_iff_along`). Where the second state is a function of the first and of the history, the relation comes from
what the function does to one step (`trace_view_iff_along`).
-/

namespace Soroban

variable {σ τ ε α γ : Type} {step : σ → τ → Except ε σ} {obs : σ → τ → α} {note : σ → τ → σ → γ → γ}

/-- What `obs` shows of the transactions of a run, each in the state it finds. -/
def trace (step : σ → τ → Except ε σ) (obs : σ → τ → α) : σ → List τ → List α
  | _, []      => []
  | s, t :: ts => obs s t :: trace step obs (exec step s t) ts

@[simp] theorem trace_nil (s : σ) : trace step obs s [] = [] := rfl

@[simp] theorem trace_cons (s : σ) (t : τ) (ts : List τ) :
    trace step obs s (t :: ts) = obs s t :: trace step obs (exec step s t) ts := rfl

/-- **Rule for two runs.** Where `R` relates the states, the observer sees the same of a transaction iff it is
    unnoticed (`P`), and unnoticed transactions keep `R`: two runs from related states show the same iff all their
    transactions go unnoticed. -/
theorem trace_eq_iff_along {R : γ → σ → σ → Prop} {P : σ × γ → τ → Prop}
    (hobs : ∀ g s s' t, R g s s' → (obs s' t = obs s t ↔ P (s, g) t))
    (hnext : ∀ g s s' t, R g s s' → P (s, g) t →
      R (exec (withHistory step note) (s, g) t).2 (exec step s t) (exec step s' t))
    {g : γ} {s s' : σ} (h : R g s s') (ts : List τ) :
    trace step obs s' ts = trace step obs s ts ↔ Along (withHistory step note) P (s, g) ts := by
  -- on the run; `R` carries it as long as nothing is noticed
  induction ts generalizing g s s' with
  | nil => exact iff_of_true rfl trivial
  | cons t ts ih =>
      rw [trace_cons, trace_cons, List.cons.injEq, along_cons, hobs g s s' t h]
      apply and_congr_right
      intro hP
      have hstep : exec (withHistory step note) (s, g) t
          = (exec step s t, (exec (withHistory step note) (s, g) t).2) :=
        Prod.ext (exec_withHistory (s, g) t) rfl
      rw [ih (hnext g s s' t h hP), hstep]

/-- **The same where the second state is a view of the first** that the history selects: a step from the view is the
    step itself, viewed under the history after it. -/
theorem trace_view_iff_along {view : γ → σ → σ} {I : γ → σ → Prop} {P : σ × γ → τ → Prop}
    (hobs : ∀ g s t, I g s → (obs (view g s) t = obs s t ↔ P (s, g) t))
    (hstep : ∀ g s t s', I g s → P (s, g) t → step (view g s) t = (step s t).map (view (note s t s' g)))
    (hinv : ∀ g s t s', I g s → step s t = .ok s' → I (note s t s' g) s')
    {g : γ} {s : σ} (h : I g s) (ts : List τ) :
    trace step obs (view g s) ts = trace step obs s ts ↔ Along (withHistory step note) P (s, g) ts := by
  refine trace_eq_iff_along (R := fun g s s' => I g s ∧ s' = view g s) ?_ ?_ ⟨h, rfl⟩ ts
  · rintro g s _ t ⟨h, rfl⟩
    exact hobs g s t h
  · rintro g s _ t ⟨h, rfl⟩ hP
    cases hok : step s t with
    | ok u =>
        have hboth : withHistory step note (s, g) t = .ok (u, note s t u g) :=
          withHistory_eq_ok.mpr ⟨hok, rfl⟩
        have hviewed := hstep g s t u h hP
        rw [hok] at hviewed
        rw [exec_ok hboth, exec_ok hok, exec_ok hviewed]
        exact ⟨hinv g s t u h hok, rfl⟩
    -- a step that fails leaves the view as it was, and the history with it
    | error e =>
        have hviewed := hstep g s t s h hP
        rw [hok] at hviewed
        have hboth : withHistory step note (s, g) t = .error e := by
          unfold withHistory
          rw [hok]
        rw [exec_error hboth, exec_error hok, exec_error hviewed]
        exact ⟨h, rfl⟩

end Soroban
