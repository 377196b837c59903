import XlmNs.Resolver.Forgetting

/-!
# `Resolver.Correctness.ReverseBatches` — the lookups of a batch do not disturb each other

A batch of reverse lookups deletes mappings between one lookup and the next. What it deletes is outdated, and an outdated
mapping answers no lookup (`unharmed_outdated`): so each address is looked up as if it were the only one.
-/

namespace XlmNs.Resolver

open Soroban

variable {ω : Type} {out : Outside ω} {env env' : Env} {s : State} {w : ω}

/-- **No query notices that outdated mappings are gone**, whichever queries found them. -/
theorem unharmed_outdated (addresses : List Bytes) (a : Bytes) :
    Unharmed out env s w (outdated out env s w addresses) a := by
  constructor
  · intro hforgotten hlive
    obtain ⟨hkept, _⟩ := outdated_of_live addresses hlive
    exact absurd (hkept.symm.trans hforgotten) Bool.false_ne_true
  · intro hforgotten hlive
    simp only [outdated, hlive, Bool.not_true, Bool.and_false] at hforgotten
    exact absurd hforgotten Bool.false_ne_true

/-- A lookup after others finds what it finds alone. -/
theorem batchReverse_after (out : Outside ω) (env : Env) (s : State) (w : ω) (a : Bytes) (addresses : List Bytes) :
    (batchReverse out env (reverse out env s w a).1 w addresses).2 = (batchReverse out env s w addresses).2 := by
  rw [reverse_forgets]
  exact (batchReverse_forget _ s addresses).1.mpr fun b _ => unharmed_outdated [a] b

/-- **A batch answers each address as it is answered alone.** -/
theorem batchReverse_answers (out : Outside ω) (env : Env) (s : State) (w : ω) (addresses : List Bytes) :
    (batchReverse out env s w addresses).2 = addresses.map fun a => (reverse out env s w a).2 := by
  induction addresses with
  | nil => rfl
  | cons a addresses ih =>
      show (reverse out env s w a).2 :: (batchReverse out env (reverse out env s w a).1 w addresses).2 = _
      rw [batchReverse_after, ih]
      rfl

/-- Of the environment a lookup reads the ledger time. -/
theorem reverse_at (h : env'.timestamp = env.timestamp) (s : State) (w : ω) (a : Bytes) :
    reverse out env' s w a = reverse out env s w a := by
  have hmatch : ∀ r name, reverseLookupMatchesCurrentOwner out env' r w name a
      = reverseLookupMatchesCurrentOwner out env r w name a := by
    intro r name
    unfold reverseLookupMatchesCurrentOwner
    rw [h]
  unfold reverse reverseThrough
  simp only [hmatch]

/-- What a batch found once it finds again: it has deleted none of it. -/
theorem batchReverse_again (h : env'.timestamp = env.timestamp) (s : State) (w : ω) (addresses : List Bytes) :
    (batchReverse out env' (batchReverse out env s w addresses).1 w addresses).2
      = (batchReverse out env s w addresses).2 := by
  have hlater : (batchReverse out env (batchReverse out env s w addresses).1 w addresses).2
      = (batchReverse out env s w addresses).2 := by
    rw [batchReverse_forgets]
    exact (batchReverse_forget _ s addresses).1.mpr fun a _ => unharmed_outdated addresses a
  rw [batchReverse_answers out env', ← hlater, batchReverse_answers out env]
  exact List.map_congr_left fun a _ => congrArg Prod.snd (reverse_at h _ w a)

/-- **The lookups of a batch are independent**, in every state of the resolver and of the registry it asks: each position
    is what `reverse` returns there alone, whatever the list repeats; the answers follow their addresses when the list is
    reordered; and the same batch at the same ledger time gets the same answers. -/
theorem batch_reverse_independent (out : Outside ω) (env : Env) (s : State) (w : ω) (addresses : List Bytes) :
    (batchReverse out env s w addresses).2 = addresses.map (fun a => (reverse out env s w a).2) ∧
      (∀ reordered : List Bytes, reordered.Perm addresses →
        (reordered.zip (batchReverse out env s w reordered).2).Perm
          (addresses.zip (batchReverse out env s w addresses).2)) ∧
      ∀ env', env'.timestamp = env.timestamp →
        (batchReverse out env' (batchReverse out env s w addresses).1 w addresses).2
          = (batchReverse out env s w addresses).2 := by
  refine ⟨batchReverse_answers out env s w addresses, ?_, fun env' h => batchReverse_again h s w addresses⟩
  intro reordered hperm
  have hzip : ∀ as : List Bytes,
      as.zip (batchReverse out env s w as).2 = as.map fun a => (a, (reverse out env s w a).2) := by
    intro as
    rw [batchReverse_answers, ← List.zip_map', List.map_id']
  rw [hzip, hzip]
  exact hperm.map _

end XlmNs.Resolver
