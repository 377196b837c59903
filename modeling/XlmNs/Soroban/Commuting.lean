import XlmNs.Soroban.Machine
import XlmNs.Soroban.Store
import XlmNs.Soroban.U64
import Mathlib.Logic.Function.Conjugate

/-!
# `Soroban.Commuting` — updates and transactions whose order does not matter

* **Updates.** Writes to a store under different keys commute, and so do an index's pushes for different owners; what
  takes a key off a list commutes with what takes or puts another one. Saturating credits commute.
* **Transactions.** `CommuteAt step s t u`: at the state `s` neither transaction's verdict depends on the other one having
  run first, and both orders end in the same state. `commute_of_updates` derives it from the two updates.
* **Exclusion.** `commits_of_exclusive`: of transactions each of which, once committed, has the later ones rejected,
  exactly the first that is acceptable commits.
-/

namespace Soroban

/-! ## Updates -/

theorem saturatingAdd_right_comm (a b c : UInt64) :
    saturatingAdd (saturatingAdd a b) c = saturatingAdd (saturatingAdd a c) b := by
  apply UInt64.toNat.inj
  simp only [toNat_saturatingAdd]
  omega

namespace Store

variable {κ ν : Type} [DecidableEq κ]

theorem set_comm (m : Store κ ν) {j k : κ} (v u : ν) (h : j ≠ k) : (m.set j v).set k u = (m.set k u).set j v := by
  unfold set
  exact Function.update_comm h (some v) (some u) m

/-- Two values are rewritten independently. -/
theorem rewrite_comm {j k : κ} (f g : Option ν → ν) (h : j ≠ k) :
    Function.Commute (fun m : Store κ ν => m.set j (f (m j))) (fun m => m.set k (g (m k))) := by
  intro m
  show (m.set k (g (m k))).set j (f (m.set k (g (m k)) j)) = (m.set j (f (m j))).set k (g (m.set j (f (m j)) k))
  rw [set_ne _ _ h, set_ne _ _ h.symm]
  exact set_comm m _ _ h.symm

/-- The second of two writes under one key is the one that counts. -/
theorem set_set (m : Store κ ν) (k : κ) (v u : ν) : (m.set k v).set k u = m.set k u := by
  unfold set
  rw [Function.update_idem]

end Store

namespace Index

variable {ο κ : Type} [DecidableEq ο] [DecidableEq κ]

omit [DecidableEq κ] in
theorem keys_set_self (idx : Index ο κ) (o : ο) (ks : List κ) : keys (Store.set idx o ks) o = ks := by
  unfold keys
  rw [Store.set_self]
  rfl

omit [DecidableEq κ] in
theorem keys_set_ne (idx : Index ο κ) {o p : ο} (ks : List κ) (h : p ≠ o) :
    keys (Store.set idx o ks) p = idx.keys p := by
  unfold keys
  rw [Store.set_ne _ _ h]

/-- Two owners' lists are written independently. -/
theorem push_comm {o p : ο} (k j : κ) (h : o ≠ p) :
    Function.Commute (fun idx : Index ο κ => idx.push o k) (fun idx => idx.push p j) := by
  intro idx
  have hp : (idx.push o k).keys p = idx.keys p := congrArg (Option.getD · []) (push_ne idx k h.symm)
  have ho : (idx.push p j).keys o = idx.keys o := congrArg (Option.getD · []) (push_ne idx j h)
  show (idx.push p j).push o k = (idx.push o k).push p j
  unfold push at hp ho ⊢
  rw [hp, ho]
  split <;> split <;> first | rfl | exact Store.set_comm idx _ _ h.symm

/-- One key is listed, another one taken off, be it on the same list. -/
theorem push_filterOut_comm (o p : ο) {k j : κ} (h : k ≠ j) :
    Function.Commute (fun idx : Index ο κ => idx.push o k) (fun idx => idx.filterOut p j) := by
  intro idx
  show (idx.filterOut p j).push o k = (idx.push o k).filterOut p j
  by_cases hp : o = p
  · subst hp
    have hlisted : k ∈ (idx.keys o).filter (fun i => i ≠ j) ↔ k ∈ idx.keys o := by simp [h]
    unfold filterOut push
    rw [keys_set_self]
    by_cases hk : k ∈ idx.keys o
    · rw [if_pos hk, if_pos (hlisted.mpr hk)]
    · rw [if_neg hk, if_neg (mt hlisted.mp hk), keys_set_self]
      rw [Store.set_set, Store.set_set, List.filter_append]
      simp [h]
  · have hkeys : (idx.push o k).keys p = idx.keys p :=
      congrArg (Option.getD · []) (push_ne idx k (Ne.symm hp))
    unfold filterOut
    rw [hkeys]
    unfold push
    rw [keys_set_ne _ _ hp]
    split
    · rfl
    · exact Store.set_comm idx _ _ (Ne.symm hp)

theorem filterOut_comm (o p : ο) (k j : κ) :
    Function.Commute (fun idx : Index ο κ => idx.filterOut o k) (fun idx => idx.filterOut p j) := by
  intro idx
  show (idx.filterOut p j).filterOut o k = (idx.filterOut o k).filterOut p j
  unfold filterOut
  by_cases hp : o = p
  · subst hp
    simp only [keys_set_self, Store.set_set, List.filter_filter, Bool.and_comm]
  · rw [keys_set_ne _ _ hp, keys_set_ne _ _ (Ne.symm hp)]
    exact Store.set_comm idx _ _ (Ne.symm hp)

end Index

/-! ## Transactions -/

section Transactions

variable {σ τ ε : Type}

/-- What a transaction is told: that it committed, or why it did not. -/
def verdict (step : σ → τ → Except ε σ) (s : σ) (t : τ) : Except ε Unit := (step s t).map (fun _ => ())

/-- **`t` and `u` commute at `s`**: executing them in either order gives each the verdict it gets alone, and ends in
    the same state. -/
structure CommuteAt (step : σ → τ → Except ε σ) (s : σ) (t u : τ) : Prop where
  first_verdict  : verdict step (exec step s u) t = verdict step s t
  second_verdict : verdict step (exec step s t) u = verdict step s u
  final_state    : run step s [t, u] = run step s [u, t]

variable {step : σ → τ → Except ε σ} {s : σ} {t u : τ}

/-- A transaction whose result is carried over is told the same. -/
theorem verdict_of_map {f : σ → σ} (h : step (f s) t = (step s t).map f) : verdict step (f s) t = verdict step s t := by
  unfold verdict
  rw [h]
  cases step s t <;> rfl

theorem exec_of_map {f : σ → σ} (h : step (f s) t = (step s t).map f) : exec step (f s) t = f (exec step s t) := by
  unfold exec
  rw [h]
  cases step s t <;> rfl

/-- **Commuting updates.** Each transaction, if it commits, does so by an update that the other one carries over. -/
theorem commute_of_updates {f g : σ → σ} (ht : ∀ s', step s t = .ok s' → s' = f s)
    (hu : ∀ s', step s u = .ok s' → s' = g s)
    (hf : (∃ s', step s t = .ok s') → step (f s) u = (step s u).map f)
    (hg : (∃ s', step s u = .ok s') → step (g s) t = (step s t).map g) (hcomm : f (g s) = g (f s)) :
    CommuteAt step s t u := by
  rcases exec_cases step s t with htok | ⟨_, htsame⟩
  · have htafter : exec step s t = f s := ht _ htok
    have hucarried := hf ⟨_, htok⟩
    rcases exec_cases step s u with huok | ⟨_, husame⟩
    · have huafter : exec step s u = g s := hu _ huok
      have htcarried := hg ⟨_, huok⟩
      refine ⟨by rw [huafter, verdict_of_map htcarried], by rw [htafter, verdict_of_map hucarried], ?_⟩
      show exec step (exec step s t) u = exec step (exec step s u) t
      rw [htafter, huafter, exec_of_map hucarried, exec_of_map htcarried, htafter, huafter, hcomm]
    · refine ⟨by rw [husame], by rw [htafter, verdict_of_map hucarried], ?_⟩
      show exec step (exec step s t) u = exec step (exec step s u) t
      rw [husame, htafter, exec_of_map hucarried, husame]
  · rcases exec_cases step s u with huok | ⟨_, husame⟩
    · have huafter : exec step s u = g s := hu _ huok
      have htcarried := hg ⟨_, huok⟩
      refine ⟨by rw [huafter, verdict_of_map htcarried], by rw [htsame], ?_⟩
      show exec step (exec step s t) u = exec step (exec step s u) t
      rw [htsame, huafter, exec_of_map htcarried, htsame]
    · refine ⟨by rw [husame], by rw [htsame], ?_⟩
      show exec step (exec step s t) u = exec step (exec step s u) t
      rw [htsame, husame, htsame]

/-! ## Exclusion -/

/-- Whether the machine takes a transaction. -/
def accepts (step : σ → τ → Except ε σ) (s : σ) (t : τ) : Bool := (step s t).toOption.isSome

theorem commits_of_rejected {ts : List τ} (h : ∀ t ∈ ts, ∃ e, step s t = .error e) : commits step s ts = [] := by
  induction ts with
  | nil => rfl
  | cons t ts ih =>
      obtain ⟨e, he⟩ := h t List.mem_cons_self
      rw [commits_cons_error ts he]
      exact ih (fun u hu => h u (List.mem_cons_of_mem t hu))

/-- **Exactly the first acceptable transaction commits**, if each one that commits has the later ones rejected. -/
theorem commits_of_exclusive {ts : List τ}
    (h : ts.Pairwise (fun t u => ∀ s', step s t = .ok s' → ∃ e, step s' u = .error e)) :
    commits step s ts = (ts.filter (accepts step s)).take 1 := by
  induction ts with
  | nil => rfl
  | cons t ts ih =>
      obtain ⟨hlater, hrest⟩ := List.pairwise_cons.mp h
      cases hst : step s t with
      | ok s' =>
          have hok : accepts step s t = true := by
            unfold accepts
            rw [hst]
            rfl
          have hnone : commits step s' ts = [] := commits_of_rejected (fun u hu => hlater u hu s' hst)
          rw [commits_cons_ok ts hst, hnone, List.filter_cons_of_pos hok, List.take_succ_cons, List.take_zero]
      | error e =>
          have hno : ¬ accepts step s t = true := by
            unfold accepts
            rw [hst]
            exact Bool.false_ne_true
          rw [commits_cons_error ts hst, List.filter_cons_of_neg hno]
          exact ih hrest

end Transactions

end Soroban
