import XlmNs.Registrar.Steps
import XlmNs.Soroban.Machine

/-!
# `Registrar.Correctness.RateLimit` — how many registrations fit in a window

The rate limit promises that no address makes more than `max` registrations in any window of `size` seconds.
The registrar keeps its counters under the key `now_unix ∸ size`, so it counts registrations that share a key,
not registrations that share a window.

Each counter is honest: `counted_le` bounds the registrations under one key along any run. So the limit holds
along every run in which the registrations less than a window apart share their key (`OneCounter`), which is
`rate_limit_holds`; six registrations, the last a second after the others, break the default limit of five.
-/

namespace XlmNs.Registrar

open Soroban

variable {ω : Type} {out : Outside ω} {self : Address} {env : Env} {s s' : State} {w w' : ω}
variable {a : Address} {size max : UInt64}

/-! ## The promise -/

/-- The `now_unix` of a registration by `a`. -/
def registeredAt (a : Address) (t : Tx Call) : Option UInt64 :=
  match t.call with
  | .register _ owner _ _ nowUnix => if owner = a then some nowUnix else none
  | _ => none

/-- The `now_unix` values of the successful registrations by `a` in a run, in order. -/
def registrations (out : Outside ω) (self : Address) (a : Address) (sw : State × ω)
    (ts : List (Tx Call)) : List UInt64 :=
  (commits (step out self) sw ts).filterMap (registeredAt a)

/-- `u` lies in the window `(t - size, t]`. -/
def InWindow (size t u : UInt64) : Prop := t.toNat < u.toNat + size.toNat ∧ u ≤ t

instance (size t u : UInt64) : Decidable (InWindow size t u) := inferInstanceAs (Decidable (_ ∧ _))

/-- **The rate limit.** No window of `size` seconds holds more than `max` registrations by `a`. -/
def RateLimited (out : Outside ω) (self : Address) (a : Address) (size max : UInt64) (sw : State × ω)
    (ts : List (Tx Call)) : Prop :=
  ∀ t, (registrations out self a sw ts).countP (fun u => InWindow size t u) ≤ max.toNat

/-- The setting of the promise: the limit is in force when the run starts and no call touches it, `a` is not
    whitelisted and never becomes so, and nothing is counted against `a` yet. -/
structure FixedLimit (a : Address) (size max : UInt64) (s : State) (ts : List (Tx Call)) : Prop where
  config    : getRateLimitConfig s = ⟨size, max⟩
  fixed     : ∀ t ∈ ts, ∀ size' max', t.call ≠ .setRateLimitConfig size' max'
  unlisted  : isWhitelisted s a = false
  neverList : ∀ t ∈ ts, t.call ≠ .whitelistAddress a
  fresh     : ∀ k, s.registrationWindow (a, k) = none

/-- Registrations less than a window apart are counted together: they carry the same `now_unix`, or are both
    within `size` of zero, where the key saturates. -/
def OneCounter (size : UInt64) (us : List UInt64) : Prop :=
  ∀ u ∈ us, ∀ v ∈ us, u ≤ v → v.toNat < u.toNat + size.toNat → u = v ∨ v ≤ size

/-! ## One step -/

/-- The counter of `a` under key `k`. -/
def counter (s : State) (a : Address) (k : UInt64) : UInt64 := (s.registrationWindow (a, k)).getD 0

/-- A registration passed the limit on its own counter, which it then bumps; the others stay. -/
theorem Change.counter_register {c : Call} {u : UInt64} (hc : Change out self env s w s' w' c)
    (hconfig : getRateLimitConfig s = ⟨size, max⟩) (hlisted : isWhitelisted s a = false)
    (hu : registeredAt a ⟨env, c⟩ = some u) :
    counter s a (saturatingSub u size) < max ∧
      ∀ k, counter s' a k = if k = saturatingSub u size then saturatingAdd (counter s a k) 1
        else counter s a k := by
  cases hc with
  | quiet _ _ _ _ _ hcall _ =>
      cases c with
      | register label owner years maxPrice nowUnix => cases hcall
      | _ => cases hu
  | @register label name owner years maxPrice nowUnix _ hlimit _ _ _ hstorage _ =>
      have hown : owner = a ∧ nowUnix = u := by simpa [registeredAt] using hu
      obtain ⟨rfl, rfl⟩ := hown
      have hkey : windowKey s owner nowUnix = (owner, saturatingSub nowUnix size) := by
        simp only [windowKey, hconfig]
      have hlt : counter s owner (saturatingSub nowUnix size) < max := by
        rcases hlimit with h | h
        · exact absurd (hlisted.symm.trans h) (by decide)
        · rwa [getRegistrationsInWindow, hkey, hconfig] at h
      refine ⟨hlt, fun k => ?_⟩
      have hset : s'.registrationWindow = s.registrationWindow.set (owner, saturatingSub nowUnix size)
          (saturatingAdd (counter s owner (saturatingSub nowUnix size)) 1) := by
        rw [hstorage, ← hkey]
        show _ = s.registrationWindow.set _ (saturatingAdd ((s.registrationWindow _).getD 0) 1)
        rw [← hkey]
        rfl
      by_cases hk : k = saturatingSub nowUnix size
      · subst hk
        simp only [counter, hset, Store.set_self, Option.getD_some, if_true]
      · have hne : (owner, k) ≠ (owner, saturatingSub nowUnix size) := by
          intro h
          exact hk (Prod.mk.inj h).2
        simp only [counter, hset, Store.set_ne _ _ hne, if_neg hk]
  | renewal _ hcall => rcases hcall with rfl | rfl <;> cases hu

/-- Anything that is not a registration by `a` leaves the counters of `a` alone. -/
theorem Change.counter_other {c : Call} (hc : Change out self env s w s' w' c)
    (hu : registeredAt a ⟨env, c⟩ = none) (k : UInt64) : counter s' a k = counter s a k := by
  cases hc with
  | quiet _ hwindow _ _ _ _ _ => simp only [counter, hwindow]
  | @register label name owner years maxPrice nowUnix _ _ _ _ _ hstorage _ =>
      have hne : (a, k) ≠ windowKey s owner nowUnix := by
        intro h
        have howner : owner = a := ((Prod.mk.inj h).1).symm
        simp [registeredAt, howner] at hu
      have hset : s'.registrationWindow (a, k) = s.registrationWindow (a, k) := by
        rw [hstorage]
        exact Store.set_ne _ _ hne
      simp only [counter, hset]
  | renewal h _ => rw [h.storage]; rfl

/-- A committed step leaves the limit in force and `a` off the whitelist, unless it is the call that
    changes them. -/
theorem Change.limit_kept {c : Call} (hc : Change out self env s w s' w' c)
    (hfix : ∀ size' max', c ≠ .setRateLimitConfig size' max') (hnever : c ≠ .whitelistAddress a)
    (hlisted : isWhitelisted s a = false) :
    getRateLimitConfig s' = getRateLimitConfig s ∧ isWhitelisted s' a = false := by
  cases hc with
  | quiet _ _ _ hconfig hkept _ _ =>
      refine ⟨hconfig hfix, ?_⟩
      rw [← Bool.not_eq_true]
      intro h
      have hbefore := hkept a hnever h
      rw [hlisted] at hbefore
      cases hbefore
  | register _ _ _ _ _ hstorage _ =>
      subst hstorage
      exact ⟨rfl, hlisted⟩
  | renewal h _ =>
      rw [h.storage]
      exact ⟨rfl, hlisted⟩

/-! ## Whole runs -/

/-- **Each counter is honest.** Along any run under a fixed limit, the registrations by `a` that share a key
    number at most `max`, what the counter already held included. -/
theorem counted_le {sw : State × ω} {ts : List (Tx Call)} (k : UInt64)
    (hconfig : getRateLimitConfig sw.1 = ⟨size, max⟩) (hlisted : isWhitelisted sw.1 a = false)
    (hfix : ∀ t ∈ ts, ∀ size' max', t.call ≠ .setRateLimitConfig size' max')
    (hnever : ∀ t ∈ ts, t.call ≠ .whitelistAddress a) (hle : counter sw.1 a k ≤ max) :
    (registrations out self a sw ts).countP (fun u => saturatingSub u size = k)
      + (counter sw.1 a k).toNat ≤ max.toNat := by
  induction ts generalizing sw with
  | nil => simpa [registrations, commits] using UInt64.le_iff_toNat_le.mp hle
  | cons t ts ih =>
      have hfix' : ∀ u ∈ ts, ∀ size' max', u.call ≠ .setRateLimitConfig size' max' := by
        intro u hu
        exact hfix u (List.mem_cons_of_mem _ hu)
      have hnever' : ∀ u ∈ ts, u.call ≠ .whitelistAddress a := by
        intro u hu
        exact hnever u (List.mem_cons_of_mem _ hu)
      cases hstep : step out self sw t with
      | error e =>
          simp only [registrations, commits_cons_error ts hstep]
          exact ih hconfig hlisted hfix' hnever' hle
      | ok sw' =>
          have hc := step_change hstep
          obtain ⟨hconfig', hlisted'⟩ := hc.limit_kept (hfix t List.mem_cons_self)
            (hnever t List.mem_cons_self) hlisted
          rw [hconfig] at hconfig'
          simp only [registrations, commits_cons_ok ts hstep]
          cases hu : registeredAt a t with
          | none =>
              have hsame := hc.counter_other hu k
              rw [List.filterMap_cons_none hu, ← hsame]
              exact ih hconfig' hlisted' hfix' hnever' (hsame ▸ hle)
          | some u =>
              obtain ⟨hlt, hbump⟩ := hc.counter_register hconfig hlisted hu
              rw [List.filterMap_cons_some hu, List.countP_cons]
              have hk := hbump k
              by_cases hkey : k = saturatingSub u size
              · -- the counter is below `max`, so the bump does not saturate
                have hlt' : (counter sw.1 a k).toNat < max.toNat :=
                  UInt64.lt_iff_toNat_lt.mp (hkey ▸ hlt)
                have hmax := toNat_le_u64Max max
                have hk' : (counter sw'.1 a k).toNat = (counter sw.1 a k).toNat + 1 := by
                  rw [hk, if_pos hkey, toNat_saturatingAdd]
                  have hone : (1 : UInt64).toNat = 1 := rfl
                  omega
                have hle' : counter sw'.1 a k ≤ max := by
                  rw [UInt64.le_iff_toNat_le]
                  omega
                have hrest := ih hconfig' hlisted' hfix' hnever' hle'
                simp only [registrations] at hrest
                simp only [hkey.symm, decide_true, if_true]
                omega
              · -- this registration is counted under another key
                rw [if_neg hkey] at hk
                have hrest := ih hconfig' hlisted' hfix' hnever' (hk ▸ hle)
                simp only [registrations, hk] at hrest
                have hne : ¬ saturatingSub u size = k := by
                  intro h
                  exact hkey h.symm
                simpa [hne] using hrest

/-- Registrations counted together have one key. -/
theorem OneCounter.key_eq {us : List UInt64} (h : OneCounter size us) {t u v : UInt64} (hu : u ∈ us)
    (hv : v ∈ us) (hut : InWindow size t u) (hvt : InWindow size t v) :
    saturatingSub u size = saturatingSub v size := by
  obtain ⟨hu1, hu2⟩ := hut
  obtain ⟨hv1, hv2⟩ := hvt
  have hsat : ∀ x y : UInt64, x ≤ y → y ≤ size → saturatingSub x size = saturatingSub y size := by
    intro x y hxy hy
    rw [UInt64.le_iff_toNat_le] at hxy hy
    apply UInt64.toNat_inj.mp
    rw [toNat_saturatingSub, toNat_saturatingSub]
    omega
  rw [UInt64.le_iff_toNat_le] at hu2 hv2
  rcases UInt64.le_total u v with huv | huv
  · rcases h u hu v hv huv (by omega) with rfl | hsmall
    · rfl
    · exact hsat u v huv hsmall
  · rcases h v hv u hu huv (by omega) with rfl | hsmall
    · rfl
    · exact (hsat v u huv hsmall).symm

/-- **The rate limit holds along every run whose registrations less than a window apart are counted
    together.** -/
theorem rate_limit_holds {sw : State × ω} {ts : List (Tx Call)} (hlimit : FixedLimit a size max sw.1 ts)
    (hone : OneCounter size (registrations out self a sw ts)) :
    RateLimited out self a size max sw ts := by
  intro t
  by_cases hsome : ∃ u ∈ registrations out self a sw ts, InWindow size t u
  · obtain ⟨u, hu, hut⟩ := hsome
    have hzero : counter sw.1 a (saturatingSub u size) = 0 := by
      simp only [counter, hlimit.fresh, Option.getD_none]
    have hcount : (registrations out self a sw ts).countP
        (fun v => saturatingSub v size = saturatingSub u size)
          + (counter sw.1 a (saturatingSub u size)).toNat ≤ max.toNat :=
      counted_le (saturatingSub u size) hlimit.config hlimit.unlisted hlimit.fixed hlimit.neverList
        (by rw [hzero]; exact UInt64.le_iff_toNat_le.mpr (Nat.zero_le _))
    have hmono : (registrations out self a sw ts).countP (fun v => InWindow size t v) ≤
        (registrations out self a sw ts).countP
          (fun v => saturatingSub v size = saturatingSub u size) := by
      apply List.countP_mono_left
      intro v hv hvt
      exact decide_eq_true (hone.key_eq hv hu (of_decide_eq_true hvt) hut)
    omega
  · have hnone : (registrations out self a sw ts).countP (fun u => InWindow size t u) = 0 := by
      rw [List.countP_eq_zero]
      intro u hu h
      exact hsome ⟨u, hu, of_decide_eq_true h⟩
    omega

/-! ## Six registrations in two seconds -/

namespace SixInADay

open Cast

/-- The registrar after `initialize`, with the default limit of five registrations a day. -/
def start : State := State.initialized registry registry

/-- Alice buys a label for a year. -/
def buy (label : String) (nowUnix : UInt64) : Tx Call :=
  ⟨⟨nowUnix, [alice], none⟩, .register (ascii label) alice 1 1000000000 nowUnix⟩

/-- Five registrations at second 100000 and a sixth one second later. -/
def sixBuys : List (Tx Call) :=
  [buy "first" 100000, buy "second" 100000, buy "third" 100000, buy "fourth" 100000,
   buy "fifth" 100000, buy "sixth" 100001]

theorem fixedLimit_sixBuys : FixedLimit alice 86400 5 start sixBuys where
  config    := rfl
  fixed     := by simp [sixBuys, buy]
  unlisted  := rfl
  neverList := by simp [sixBuys, buy]
  fresh     := fun _ => rfl

/-- **The rate limit fails on the code**: a sixth registration within a day succeeds. -/
theorem sixth_registration_accepted :
    initializeContract State.empty registry registry = .ok start ∧
      FixedLimit alice 86400 5 start sixBuys ∧
      (registrations accepting registrar alice (start, ()) sixBuys).Pairwise (· ≤ ·) ∧
      ¬ RateLimited accepting registrar alice 86400 5 (start, ()) sixBuys := by
  have hall : registrations accepting registrar alice (start, ()) sixBuys
      = [100000, 100000, 100000, 100000, 100000, 100001] := by
    decide +kernel
  refine ⟨rfl, fixedLimit_sixBuys, ?_, ?_⟩
  · rw [hall]; decide
  · intro h
    have hsix := h 100001
    rw [hall] at hsix
    exact absurd hsix (by decide)

/-- The first five, all at one second, are within the limit. -/
theorem five_at_once_limited :
    RateLimited accepting registrar alice 86400 5 (start, ()) (sixBuys.take 5) := by
  have hall : registrations accepting registrar alice (start, ()) (sixBuys.take 5)
      = [100000, 100000, 100000, 100000, 100000] := by
    decide +kernel
  refine rate_limit_holds ⟨rfl, ?_, rfl, ?_, fun _ => rfl⟩ ?_
  · simp [sixBuys, buy]
  · simp [sixBuys, buy]
  · rw [hall]
    intro u hu v hv _ _
    simp at hu hv
    exact Or.inl (hu.trans hv.symm)

end SixInADay

end XlmNs.Registrar
