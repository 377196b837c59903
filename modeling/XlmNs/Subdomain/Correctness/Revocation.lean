import XlmNs.Subdomain.Correctness.Indexes

/-!
# `Subdomain.Correctness.Revocation` — the two ways to remove a subdomain

`delete` passes on the error of the parent lookup, `revoke` takes a failed lookup for a caller without authority. Both have
asked before whether the parent is active, so the lookup fails only where a subdomain has no parent record. There is no
such subdomain (`Indexed`).
-/

namespace XlmNs.Subdomain

open Soroban

variable {ω : Type} {out : Outside ω} {env : Env} {s : State} {w : ω}
variable {fqdn p : Bytes} {caller : Address} {rec : ParentDomain}

/-- Below an active parent the lookup reads the record. -/
theorem getParent_of_active (hactive : requireActive out env s w p = .ok ()) (hparent : s.parent p = some rec) :
    getParent out env s w p = .ok rec := by
  unfold getParent
  rw [hactive, hparent]
  rfl

/-- **`revoke` is `delete`** for a subdomain whose parent has a record. -/
theorem revoke_eq_delete
    (h : ∀ record, s.subdomain fqdn = some record → ∃ rec, s.parent record.parent = some rec) :
    revoke out env s w fqdn caller = delete out env s w fqdn caller := by
  unfold revoke delete
  -- the signature, the record and the state of the parent are asked alike
  apply bind_congr_outcome
  intro _ _
  apply bind_congr_outcome
  intro record hrecord
  apply bind_congr_outcome
  intro _ hactive
  obtain ⟨rec, hparent⟩ := h record (okOr_eq_ok.mp hrecord)
  rw [getParent_of_active hactive hparent]
  by_cases howner : record.owner = caller
  · rw [if_neg (not_not.mpr howner)]
    simp only [howner, if_true]
    rfl
  · rw [if_pos howner]
    simp only [howner, if_false, decide_eq_true_eq]
    rfl

/-- **`delete` and `revoke` agree** in every state that any calls lead to, whatever the registry answers: they return the
    same storage, or fail with the same error. -/
theorem delete_revoke_agree (out : Outside ω) (ts : List (ω × Tx Call)) (env : Env) (w : ω) (fqdn : Bytes)
    (caller : Address) :
    let s := run (inWorlds (step out)) State.empty ts
    step out w s ⟨env, .delete fqdn caller⟩ = step out w s ⟨env, .revoke fqdn caller⟩ ∧
      exec (inWorlds (step out)) s (w, ⟨env, .delete fqdn caller⟩)
        = exec (inWorlds (step out)) s (w, ⟨env, .revoke fqdn caller⟩) := by
  intro s
  have hindexed : Indexed s := (preserves_indexed out).run ts indexed_empty
  have hsame : step out w s ⟨env, .delete fqdn caller⟩ = step out w s ⟨env, .revoke fqdn caller⟩ :=
    (revoke_eq_delete fun record hrecord => hindexed.parent fqdn record hrecord).symm
  refine ⟨hsame, ?_⟩
  unfold exec inWorlds
  rw [hsame]

end XlmNs.Subdomain
