import Mathlib.Algebra.GroupWithZero.Nat
import Mathlib.Data.List.Basic

/-!
# `Soroban.Machine` — runs of a machine whose failing steps roll back

A contract invocation either commits a new storage or fails, and a failing invocation leaves no trace. A
machine is therefore a function `step : σ → τ → Except ε σ` from a state and a transaction, and a *run* is a
list of transactions executed in order, the rejected ones being no-ops (`exec`).

## Contents
- **Runs.** `exec`, `run`, and `commits`, the transactions of a run that were not rejected; `exec_of_ok` and
  `exec_iff`, the rules for what holds after a transaction; `inWorlds`, a machine in a world that changes.
- **Invariants.** `Preserves` + `Preserves.run`: a state predicate every committed step keeps holds along
  any run from a state that has it.
- **Saturating counters.** `run_saturating`: what a counter with a cap holds after a run.
- **History variables.** `withHistory` watches a machine and notes its commits, without changing its runs.
- **Step properties along a run.** `Along P s ts` says `P` holds of every pair (state before, transaction)
  met when `ts` runs from `s`; `along_of_invariant`, `Along.imp`, `along_append`, `along_withHistory`, `along_iff`,
  `along_iff_timed` are its rules.

Nothing here mentions a contract: states, transactions and errors are type variables.
-/

namespace Soroban

variable {σ τ ε : Type}

/-! ## Runs -/

/-- One transaction: commit on success, roll back on failure. -/
def exec (step : σ → τ → Except ε σ) (s : σ) (t : τ) : σ :=
  match step s t with
  | .ok s'   => s'
  | .error _ => s

/-- The outcome of a component, as an outcome of the machine it is part of. -/
def embed {σ' ε' : Type} (put : σ → σ') (fail : ε → ε') : Except ε σ → Except ε' σ'
  | .ok s    => .ok (put s)
  | .error e => .error (fail e)

/-- An embedded step commits where the step does. -/
theorem embed_eq_ok {σ' ε' : Type} {put : σ → σ'} {fail : ε → ε'} {r : Except ε σ} {s' : σ'} :
    embed put fail r = .ok s' ↔ ∃ s, r = .ok s ∧ put s = s' := by
  cases r <;> simp [embed]

/-- Execute a list of transactions in order. -/
def run (step : σ → τ → Except ε σ) : σ → List τ → σ
  | s, []      => s
  | s, t :: ts => run step (exec step s t) ts

/-- A machine that reads a world it does not control: each transaction comes with the world it finds. -/
def inWorlds {ω : Type} (step : ω → σ → τ → Except ε σ) (s : σ) (t : ω × τ) : Except ε σ := step t.1 s t.2

variable {step : σ → τ → Except ε σ}

theorem exec_ok {s s' : σ} {t : τ} (h : step s t = .ok s') : exec step s t = s' := by
  simp [exec, h]

theorem exec_error {s : σ} {t : τ} {e : ε} (h : step s t = .error e) : exec step s t = s := by
  simp [exec, h]

/-- **The two outcomes of a transaction**: it commits, or it leaves the state alone. -/
theorem exec_cases (step : σ → τ → Except ε σ) (s : σ) (t : τ) :
    step s t = .ok (exec step s t) ∨ ((∃ e, step s t = .error e) ∧ exec step s t = s) := by
  cases h : step s t with
  | ok s' => exact Or.inl (by rw [exec_ok h])
  | error e => exact Or.inr ⟨⟨e, rfl⟩, exec_error h⟩

/-- What held before a transaction holds after it, if committing keeps it. -/
theorem exec_of_ok {P : σ → Prop} {s : σ} {t : τ} (h : P s) (hok : ∀ s', step s t = .ok s' → P s') :
    P (exec step s t) := by
  rcases exec_cases step s t with hcommit | ⟨_, hsame⟩
  · exact hok _ hcommit
  · rw [hsame]
    exact h

/-- What held before a transaction holds after it iff `Q` does or it is rejected, if `Q` is what committing needs. -/
theorem exec_iff {P : σ → Prop} {Q : Prop} {s : σ} {t : τ} (h : P s)
    (hok : ∀ s', step s t = .ok s' → (P s' ↔ Q)) :
    P (exec step s t) ↔ ((∃ s', step s t = .ok s') → Q) := by
  constructor
  · rintro hafter ⟨s', hcommit⟩
    rw [exec_ok hcommit] at hafter
    exact (hok s' hcommit).mp hafter
  · intro hQ
    apply exec_of_ok h
    intro s' hcommit
    exact (hok s' hcommit).mpr (hQ ⟨s', hcommit⟩)

@[simp] theorem run_nil (s : σ) : run step s [] = s := rfl

@[simp] theorem run_cons (s : σ) (t : τ) (ts : List τ) :
    run step s (t :: ts) = run step (exec step s t) ts := rfl

/-- A run in two parts. -/
theorem run_append (s : σ) (ts us : List τ) : run step s (ts ++ us) = run step (run step s ts) us := by
  induction ts generalizing s with
  | nil => rfl
  | cons t ts ih => exact ih (exec step s t)

/-- The transactions of a run that committed, in order. -/
def commits (step : σ → τ → Except ε σ) : σ → List τ → List τ
  | _, []      => []
  | s, t :: ts =>
      match step s t with
      | .ok s'   => t :: commits step s' ts
      | .error _ => commits step s ts

theorem commits_cons_ok {s s' : σ} {t : τ} (ts : List τ) (h : step s t = .ok s') :
    commits step s (t :: ts) = t :: commits step s' ts := by
  simp [commits, h]

theorem commits_cons_error {s : σ} {t : τ} {e : ε} (ts : List τ) (h : step s t = .error e) :
    commits step s (t :: ts) = commits step s ts := by
  simp [commits, h]

/-- No more commits than there are transactions. -/
theorem length_commits_le (step : σ → τ → Except ε σ) (s : σ) (ts : List τ) :
    (commits step s ts).length ≤ ts.length := by
  induction ts generalizing s with
  | nil => exact Nat.le_refl 0
  | cons t ts ih =>
      unfold commits
      cases step s t with
      | ok s' => exact Nat.succ_le_succ (ih s')
      | error e => exact Nat.le_succ_of_le (ih s)

/-! ## Invariants -/

/-- `Inv` survives every committed step. -/
def Preserves (step : σ → τ → Except ε σ) (Inv : σ → Prop) : Prop :=
  ∀ s t s', Inv s → step s t = .ok s' → Inv s'

theorem Preserves.exec {Inv : σ → Prop} (hp : Preserves step Inv) {s : σ} (h : Inv s) (t : τ) :
    Inv (exec step s t) := by
  apply exec_of_ok h
  intro s' hok
  exact hp s t s' h hok

/-- **Run rule for invariants.** -/
theorem Preserves.run {Inv : σ → Prop} (hp : Preserves step Inv) (ts : List τ) {s : σ} (h : Inv s) :
    Inv (run step s ts) := by
  induction ts generalizing s with
  | nil => exact h
  | cons t ts ih => exact ih (hp.exec h t)

/-! ## Saturating counters -/

/-- **A counter that saturates** holds what it held plus what the committed transactions added, up to its cap. -/
theorem run_saturating {value : σ → Nat} {gain : τ → Nat} {cap : Nat} (hcap : ∀ s, value s ≤ cap)
    (hstep : ∀ s t s', step s t = .ok s' → value s' = min (value s + gain t) cap) (s : σ) (ts : List τ) :
    value (run step s ts) = min (value s + ((commits step s ts).map gain).sum) cap := by
  induction ts generalizing s with
  | nil =>
      have := hcap s
      show value s = min (value s + 0) cap
      omega
  | cons t ts ih =>
      rw [run_cons, ih]
      cases h : step s t with
      | ok s' =>
          have := hstep s t s' h
          rw [exec_ok h, commits_cons_ok ts h, List.map_cons, List.sum_cons]
          omega
      | error e => rw [exec_error h, commits_cons_error ts h]

/-! ## History variables -/

section History

variable {γ : Type} {note : σ → τ → σ → γ → γ}

/-- The machine with a history variable next to its state; commits are noted in it. -/
def withHistory (step : σ → τ → Except ε σ) (note : σ → τ → σ → γ → γ) (sg : σ × γ) (t : τ) :
    Except ε (σ × γ) :=
  match step sg.1 t with
  | .ok s'   => .ok (s', note sg.1 t s' sg.2)
  | .error e => .error e

/-- A history variable is carried along and changes nothing. -/
theorem withHistory_eq_ok {s s' : σ} {g g' : γ} {t : τ} :
    withHistory step note (s, g) t = .ok (s', g') ↔ step s t = .ok s' ∧ note s t s' g = g' := by
  unfold withHistory
  cases h : step s t with
  | error e => simp
  | ok u =>
      constructor
      · intro heq
        injection heq with heq
        obtain ⟨rfl, rfl⟩ := Prod.mk.inj heq
        exact ⟨rfl, rfl⟩
      · rintro ⟨heq, rfl⟩
        injection heq with heq
        subst heq
        rfl

/-- A history variable rejects nothing. -/
theorem withHistory_accepted_iff {s : σ} {g : γ} {t : τ} :
    (∃ sg, withHistory step note (s, g) t = .ok sg) ↔ ∃ s', step s t = .ok s' := by
  constructor
  · rintro ⟨⟨s', g'⟩, hok⟩
    exact ⟨s', (withHistory_eq_ok.mp hok).1⟩
  · rintro ⟨s', hok⟩
    exact ⟨_, withHistory_eq_ok.mpr ⟨hok, rfl⟩⟩

/-- Without its history, the machine is as before. -/
theorem exec_withHistory (sg : σ × γ) (t : τ) :
    (exec (withHistory step note) sg t).1 = exec step sg.1 t := by
  unfold exec withHistory
  cases step sg.1 t <;> rfl

/-- **A history variable changes no run.** -/
theorem run_withHistory (sg : σ × γ) (ts : List τ) :
    (run (withHistory step note) sg ts).1 = run step sg.1 ts := by
  induction ts generalizing sg with
  | nil => rfl
  | cons t ts ih =>
      rw [run_cons, run_cons, ih, exec_withHistory]

end History

/-! ## Step properties along a run -/

/-- `P` holds of every (state before, transaction) pair met when `ts` runs from `s`. -/
def Along (step : σ → τ → Except ε σ) (P : σ → τ → Prop) : σ → List τ → Prop
  | _, []      => True
  | s, t :: ts => P s t ∧ Along step P (exec step s t) ts

@[simp] theorem along_nil (P : σ → τ → Prop) (s : σ) : Along step P s [] := trivial

@[simp] theorem along_cons (P : σ → τ → Prop) (s : σ) (t : τ) (ts : List τ) :
    Along step P s (t :: ts) ↔ P s t ∧ Along step P (exec step s t) ts := Iff.rfl

/-- A property along a run in two parts. -/
theorem along_append (P : σ → τ → Prop) (s : σ) (ts us : List τ) :
    Along step P s (ts ++ us) ↔ Along step P s ts ∧ Along step P (run step s ts) us := by
  induction ts generalizing s with
  | nil => simp
  | cons t ts ih => simp [ih, and_assoc]

/-- A property along a run holds at each of its positions. -/
theorem along_split {P : σ → τ → Prop} {s : σ} (pre post : List τ) {t : τ}
    (h : Along step P s (pre ++ t :: post)) : P (run step s pre) t :=
  ((along_append P s pre (t :: post)).mp h).2.1

/-- **Run rule for step properties.** What an invariant gives at one step holds along every run. -/
theorem along_of_invariant {Inv : σ → Prop} {P : σ → τ → Prop} (hp : Preserves step Inv)
    (hP : ∀ s t, Inv s → P s t) (ts : List τ) {s : σ} (h : Inv s) : Along step P s ts := by
  induction ts generalizing s with
  | nil => trivial
  | cons t ts ih => exact ⟨hP s t h, ih (hp.exec h t)⟩

/-- What holds at every state and transaction holds along every run. -/
theorem along_of_forall {P : σ → τ → Prop} (hP : ∀ s t, P s t) (ts : List τ) (s : σ) :
    Along step P s ts := by
  induction ts generalizing s with
  | nil => trivial
  | cons t ts ih => exact ⟨hP s t, ih (exec step s t)⟩

/-- What holds of every transaction of a run holds along it. -/
theorem along_of_mem {P : τ → Prop} {ts : List τ} (hP : ∀ t ∈ ts, P t) (s : σ) : Along step (fun _ t => P t) s ts := by
  induction ts generalizing s with
  | nil => trivial
  | cons t ts ih => exact ⟨hP t List.mem_cons_self, ih (fun u hu => hP u (List.mem_cons_of_mem t hu)) (exec step s t)⟩

theorem Along.imp {P Q : σ → τ → Prop} (hPQ : ∀ s t, P s t → Q s t) {ts : List τ} {s : σ}
    (h : Along step P s ts) : Along step Q s ts := by
  induction ts generalizing s with
  | nil => trivial
  | cons t ts ih => exact ⟨hPQ s t h.1, ih h.2⟩

theorem Along.mp {P Q : σ → τ → Prop} {ts : List τ} {s : σ}
    (hPQ : Along step (fun s t => P s t → Q s t) s ts) (h : Along step P s ts) : Along step Q s ts := by
  induction ts generalizing s with
  | nil => trivial
  | cons t ts ih => exact ⟨hPQ.1 h.1, ih hPQ.2 h.2⟩

/-- Step properties that are equivalent along a run hold along it together. -/
theorem along_congr {P Q : σ → τ → Prop} {ts : List τ} {s : σ}
    (h : Along step (fun s t => P s t ↔ Q s t) s ts) : Along step P s ts ↔ Along step Q s ts := by
  induction ts generalizing s with
  | nil => exact Iff.rfl
  | cons t ts ih => exact and_congr h.1 (ih h.2)

/-- A property of the machine holds along a run whether or not a history is kept. -/
theorem along_withHistory {γ : Type} {note : σ → τ → σ → γ → γ} {P : σ → τ → Prop} {sg : σ × γ} {ts : List τ} :
    Along (withHistory step note) (fun sg t => P sg.1 t) sg ts ↔ Along step P sg.1 ts := by
  induction ts generalizing sg with
  | nil => exact Iff.rfl
  | cons t ts ih =>
      rw [along_cons, along_cons, ih, exec_withHistory]

/-- **Run rule for exact conditions.** Where `I` holds, `P` and `Q` hold of the same transactions, and those
    of which `P` holds keep `I`: a run satisfies `P` throughout iff it satisfies `Q` throughout. -/
theorem along_iff {I : σ → Prop} {P Q : σ → τ → Prop} (hiff : ∀ s t, I s → (P s t ↔ Q s t))
    (hnext : ∀ s t, I s → P s t → I (exec step s t)) {ts : List τ} {s : σ} (h : I s) :
    Along step P s ts ↔ Along step Q s ts := by
  induction ts generalizing s with
  | nil => exact Iff.rfl
  | cons t ts ih =>
      rw [along_cons, along_cons, ← hiff s t h]
      apply and_congr_right
      intro hP
      exact ih (hnext s t h hP)

/-- The same for an invariant that depends on the time: the transactions come in order, and what holds at one time holds
    later. -/
theorem along_iff_timed {T : Type} [LE T] {time : τ → T} {I : T → σ → Prop} {P Q : σ → τ → Prop}
    (hlater : ∀ a b s, I a s → a ≤ b → I b s) (hiff : ∀ s t, I (time t) s → (P s t ↔ Q s t))
    (hnext : ∀ s t, I (time t) s → P s t → I (time t) (exec step s t)) {ts : List τ} {s : σ}
    (horder : ts.Pairwise (fun t u => time t ≤ time u)) (h : ∀ t ∈ ts, I (time t) s) :
    Along step P s ts ↔ Along step Q s ts := by
  induction ts generalizing s with
  | nil => exact Iff.rfl
  | cons t ts ih =>
      obtain ⟨hfirst, horder'⟩ := List.pairwise_cons.mp horder
      have ht : I (time t) s := h t List.mem_cons_self
      rw [along_cons, along_cons, ← hiff s t ht]
      refine and_congr_right (fun hP => ih horder' ?_)
      intro u hu
      exact hlater (time t) (time u) _ (hnext s t ht hP) (hfirst u hu)

/-- **Relative invariants.** If `Inv` is kept by the steps that satisfy `Q`, it holds after a run all of
    whose steps do. -/
theorem Along.run_invariant (Inv : σ → Prop) {Q : σ → τ → Prop}
    (hstep : ∀ s t, Inv s → Q s t → Inv (exec step s t)) {ts : List τ} {s : σ} (h : Inv s)
    (hQ : Along step Q s ts) : Inv (run step s ts) := by
  induction ts generalizing s with
  | nil => exact h
  | cons t ts ih => exact ih (hstep s t h hQ.1) hQ.2

end Soroban
