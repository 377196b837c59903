import Mathlib.Algebra.BigOperators.Group.Finset.Basic
import XlmNs.Sdk.Errors

/-!
# `Sdk.Correctness.Retry` — what a call through `execute_with_retry` comes to

A call is made at most `max_retries` times again. `executeWithRetry_iff` says what comes of it for every behaviour of the
service: the first answer that is a value or a permanent error, as it is, or the report that the retries are used up, with
their number and the time waited. `executeWithRetry_nested`: the answer is never worth a retry, so that one retry loop inside
another makes no call more.
-/

namespace XlmNs.Sdk

open Soroban
open Ingestion (Duration maxDuration)

variable {ω α : Type} {out : Outside ω} {config config' : RetryConfig} {rpcUrl : String} {f : Action ω α}
variable {w w' u : ω} {k : Nat} {total : Duration}

/-! ## Pauses -/

/-- A jittered pause is no longer than the plain one, and a plain one just as long. -/
theorem sleepDuration_le (out : Outside ω) (config : RetryConfig) (attempt : Nat) (w : ω) :
    (config.sleepDuration out attempt w).1 ≤ config.backoffFor attempt ∧
      (config.jitter = false → (config.sleepDuration out attempt w).1 = config.backoffFor attempt) := by
  unfold RetryConfig.sleepDuration
  dsimp only
  split
  · exact ⟨Nat.le_refl _, fun _ => rfl⟩
  · rename_i hjitter
    refine ⟨?_, fun hplain => absurd (Or.inl hplain) hjitter⟩
    split
    · exact Nat.zero_le _
    · -- the draw is of whole milliseconds
      generalize hmillis : min (asMillis (config.backoffFor attempt)) (2 ^ 64 - 1) = millis
      have hle : (out.genRange (UInt64.ofNat millis) w).1.val.toNat ≤ millis := by
        have h := UInt64.le_iff_toNat_le.mp (out.genRange (UInt64.ofNat millis) w).1.property
        rw [UInt64.toNat_ofNat'] at h
        exact Nat.le_trans h (Nat.mod_le _ _)
      have hbase : millis * nanosPerMilli ≤ config.backoffFor attempt := by
        have hmin : millis ≤ asMillis (config.backoffFor attempt) := hmillis ▸ Nat.min_le_left _ _
        exact Nat.le_trans (Nat.mul_le_mul_right _ hmin) (Nat.div_mul_le_self _ _)
      exact Nat.le_trans (Nat.mul_le_mul_right _ hle) hbase

/-- The longest the first `k` pauses can take. -/
def RetryConfig.backoffSum (config : RetryConfig) (k : Nat) : Duration := ∑ i ∈ Finset.range k, config.backoffFor i

/-! ## One loop -/

/-- `k` calls have failed with transient errors, each followed by its pause; the time waited is `total`. -/
def Retried (out : Outside ω) (config : RetryConfig) (f : Action ω α) (w : ω) (k : Nat) (u : ω) (total : Duration) : Prop :=
  Retries (attemptOf f) isRetryable (pause out config) 0 (w, 0) k (u, total)

/-- **The time waited** is at most what the backoffs add up to, and just that without jitter. -/
theorem Retried.total_le (h : Retried out config f w k u total) :
    total ≤ config.backoffSum k ∧ (config.jitter = false → total = config.backoffSum k) := by
  let Waited : Nat → ω × Duration → Prop := fun k wt =>
    wt.2 ≤ config.backoffSum k ∧ (config.jitter = false → wt.2 = config.backoffSum k)
  have hstep : ∀ k wt e wt₁, Waited k wt → attemptOf f wt = (.error e, wt₁) → Waited (k + 1) (pause out config k wt₁) := by
    rintro k wt e wt₁ ⟨hle, heq⟩ hcall
    obtain ⟨hpause, hplain⟩ := sleepDuration_le out config k wt₁.1
    have hsame : wt₁.2 = wt.2 := congrArg (fun answer => answer.2.2) hcall.symm
    have hsum : config.backoffSum (k + 1) = config.backoffSum k + config.backoffFor k := Finset.sum_range_succ _ k
    have hwaited : (pause out config k wt₁).2 = wt.2 + (config.sleepDuration out k wt₁.1).1 := by
      rw [← hsame]
      rfl
    refine ⟨?_, fun hjitter => ?_⟩
    · rw [hwaited, hsum]
      exact Nat.add_le_add hle hpause
    · rw [hwaited, hsum, heq hjitter, hplain hjitter]
  exact Retries.invariant hstep h ⟨Nat.le_refl 0, fun _ => rfl⟩

/-- What the last answer becomes. -/
inductive Concludes (config : RetryConfig) (k : Nat) (total : Duration) : Except SdkError α → Except SdkError α → Prop
  | value (v : α) : Concludes config k total (.ok v) (.ok v)
  | permanent {e : SdkError} (h : isRetryable e = false) : Concludes config k total (.error e) (.error e)
  | exhausted {e : SdkError} (h : isRetryable e = true) (hk : k = config.maxRetries.toNat) :
      Concludes config k total (.error e)
        (.error (.rateLimitExceeded ⟨config.maxRetries, UInt64.ofNat (asMillis total)⟩))

/-- The outcome of a call through the loop. -/
def Outcome (out : Outside ω) (config : RetryConfig) (f : Action ω α) (w : ω) (r : Except SdkError α) (w' : ω) : Prop :=
  ∃ k u total answer, Retried out config f w k u total ∧ k ≤ config.maxRetries.toNat ∧
    total ≤ config.backoffSum k ∧ f u = (answer, w') ∧ Concludes config k total answer r

theorem Concludes.ends {answer r : Except SdkError α} (h : Concludes config k total answer r) :
    Ends isRetryable (k = config.maxRetries.toNat) answer := by
  intro e he hretryable
  cases h with
  | value => cases he
  | permanent hpermanent =>
      obtain rfl := Except.error.inj he
      cases hpermanent.symm.trans hretryable
  | exhausted _ hk => exact hk

/-- The outcome, read off the loop. -/
theorem outcome_iff {r : Except SdkError α} :
    Outcome out config f w r w' ↔ ∃ answer k total,
      retry (attemptOf f) isRetryable (pause out config) config.maxRetries.toNat 0 (w, 0) = ((answer, k), w', total) ∧
        Concludes config k total answer r := by
  constructor
  · rintro ⟨k, u, total, answer, hretried, hle, _, hcall, hconcludes⟩
    have hattempt : attemptOf f (u, total) = (answer, w', total) := by
      unfold attemptOf
      rw [hcall]
    have hends : Ends isRetryable (k = 0 + config.maxRetries.toNat) answer := by
      rw [Nat.zero_add]
      exact hconcludes.ends
    refine ⟨answer, k, total, retry_iff.mpr ⟨(u, total), hretried, hattempt, ?_, hends⟩, hconcludes⟩
    rw [Nat.zero_add]
    exact hle
  · rintro ⟨answer, k, total, hloop, hconcludes⟩
    obtain ⟨⟨u, waited⟩, hretried, hattempt, hle, _⟩ := retry_iff.mp hloop
    rw [Nat.zero_add] at hle
    obtain ⟨hanswer, hrest⟩ := Prod.mk.inj hattempt
    obtain ⟨hworld, rfl⟩ := Prod.mk.inj hrest
    exact ⟨k, u, waited, answer, hretried, hle, (Retried.total_le hretried).1, Prod.ext hanswer hworld, hconcludes⟩

/-- Without a client no call is made. -/
theorem executeWithRetry_unconnected {e : String} (hclient : out.newClient rpcUrl = some e) :
    executeWithRetry out config rpcUrl f w = (.error (.invalidRequest ("failed to create RPC client: " ++ e)), w) := by
  unfold executeWithRetry
  rw [hclient]

/-- With a client the loop decides. -/
theorem executeWithRetry_connected {r : Except SdkError α} (hclient : out.newClient rpcUrl = none) :
    executeWithRetry out config rpcUrl f w = (r, w') ↔ Outcome out config f w r w' := by
  unfold executeWithRetry
  rw [hclient, outcome_iff]
  rcases hloop : retry (attemptOf f) isRetryable (pause out config) config.maxRetries.toNat 0 (w, 0) with
    ⟨⟨answer, k⟩, w₁, total⟩
  dsimp only
  constructor
  · intro h
    refine ⟨answer, k, total, ?_, ?_⟩
    · cases answer with
      | ok v =>
          obtain ⟨_, rfl⟩ := Prod.mk.inj h
          rfl
      | error e =>
          dsimp only at h
          split at h <;> obtain ⟨_, rfl⟩ := Prod.mk.inj h <;> rfl
    · cases answer with
      | ok v =>
          obtain ⟨rfl, _⟩ := Prod.mk.inj h
          exact .value v
      | error e =>
          dsimp only at h
          split at h
          · rename_i hretryable
            obtain ⟨rfl, _⟩ := Prod.mk.inj h
            have hk : k = config.maxRetries.toNat := by
              obtain ⟨_, _, _, _, hends⟩ := retry_iff.mp hloop
              rw [hends e rfl hretryable, Nat.zero_add]
            rw [hk, UInt32.ofNat_toNat]
            exact .exhausted hretryable rfl
          · rename_i hpermanent
            obtain ⟨rfl, _⟩ := Prod.mk.inj h
            exact .permanent (Bool.eq_false_iff.mpr hpermanent)
  · rintro ⟨answer', k', total', heq, hconcludes⟩
    obtain ⟨hfirst, hrest⟩ := Prod.mk.inj heq
    obtain ⟨rfl, rfl⟩ := Prod.mk.inj hfirst
    obtain ⟨rfl, rfl⟩ := Prod.mk.inj hrest
    cases hconcludes with
    | value v => rfl
    | permanent hpermanent => simp [hpermanent]
    | exhausted hretryable hk => simp [hretryable, hk]

/-- **What comes of a call**, whatever the service answers: after at most `max_retries` failed tries, with pauses that add
    up to no more than their backoffs, the first answer that is a value or a permanent error; or the retries are used up. -/
theorem executeWithRetry_iff (out : Outside ω) (config : RetryConfig) (rpcUrl : String) (f : Action ω α) (w : ω)
    (r : Except SdkError α) (w' : ω) :
    executeWithRetry out config rpcUrl f w = (r, w') ↔
      (∃ e, out.newClient rpcUrl = some e ∧
        (r, w') = (.error (.invalidRequest ("failed to create RPC client: " ++ e)), w)) ∨
      out.newClient rpcUrl = none ∧ Outcome out config f w r w' := by
  cases hclient : out.newClient rpcUrl with
  | some e =>
      rw [executeWithRetry_unconnected hclient]
      constructor
      · intro h
        exact Or.inl ⟨e, rfl, h.symm⟩
      · rintro (⟨_, he, h⟩ | ⟨h, _⟩)
        · obtain rfl := Option.some.inj he
          exact h.symm
        · cases h
  | none =>
      rw [executeWithRetry_connected hclient]
      constructor
      · exact fun h => Or.inr ⟨rfl, h⟩
      · rintro (⟨_, he, _⟩ | ⟨_, h⟩)
        · cases he
        · exact h

/-! ## One loop inside another -/

/-- An error that comes out of the loop is not worth a retry. -/
theorem executeWithRetry_permanent {e : SdkError} (h : (executeWithRetry out config rpcUrl f w).1 = .error e) :
    isRetryable e = false := by
  rcases hrun : executeWithRetry out config rpcUrl f w with ⟨r, w'⟩
  rw [hrun] at h
  obtain rfl : r = .error e := h
  cases hclient : out.newClient rpcUrl with
  | some text =>
      rw [executeWithRetry_unconnected hclient] at hrun
      obtain ⟨he, _⟩ := Prod.mk.inj hrun
      obtain rfl := Except.error.inj he
      rfl
  | none =>
      obtain ⟨_, _, _, _, _, _, _, _, hconcludes⟩ := (executeWithRetry_connected hclient).mp hrun
      cases hconcludes with
      | permanent hpermanent => exact hpermanent
      | exhausted _ _ => rfl

/-- **Nested retries do not multiply**: a loop around a loop makes no call and no pause more, whatever the two policies. -/
theorem executeWithRetry_nested (out : Outside ω) (config config' : RetryConfig) (rpcUrl : String) (f : Action ω α) :
    executeWithRetry out config' rpcUrl (executeWithRetry out config rpcUrl f) =
      executeWithRetry out config rpcUrl f := by
  funext w
  rcases hrun : executeWithRetry out config rpcUrl f w with ⟨r, w'⟩
  cases hclient : out.newClient rpcUrl with
  | some e => rw [executeWithRetry_unconnected hclient, ← hrun, executeWithRetry_unconnected hclient]
  | none =>
      -- the first answer of the inner loop is final
      refine (executeWithRetry_connected hclient).mpr
        ⟨0, w, 0, r, .refl 0 (w, 0), Nat.zero_le _, Nat.zero_le _, hrun, ?_⟩
      cases r with
      | ok v => exact .value v
      | error e => exact .permanent (executeWithRetry_permanent (congrArg Prod.fst hrun))

end XlmNs.Sdk
