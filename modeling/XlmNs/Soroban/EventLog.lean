import Mathlib.Data.List.Basic
import XlmNs.Soroban.Machine
import XlmNs.Soroban.Store

/-!
# `Soroban.EventLog` — the events a run publishes, and what replaying them tells

A committed transaction publishes events; those of a rejected one are discarded with its writes. Whoever follows a
contract from outside sees this log and nothing else, and keeps its own picture of the contract by applying the
events one by one.

## Contents
- **Logs.** `published`, the log of a run; `replay`, applying a log to a picture.
- **Faithful logs.** `replay_published_rel` + `replay_published`: if the events of every committed step take the picture
  of the state before it to the picture of the state after it, the log of a run takes the first picture to the last;
  `replay_prefixes_iff` says that it must, if the log is to be right all along.
- **Components.** A log may also be of transactions: `SeenAs` says that each committed step is committed transactions of a
  component; then every run is a run of the component (`SeenAs.run_eq`), along which `SeenAs.along_iff` carries properties.
- **Logs of writes.** A `Patch` writes some keys of a store; the last write of a key decides (`overlay_apply`).
- **Redelivery.** `Delivery es d p hi` says a subscriber of `es` that may go back in the log at any time has been
  delivered `d`, reads at `p` next and has seen the first `hi` events; `Delivery.overlay_eq`: replaying patches, it ends up
  where one delivery of each event would have left it.
-/

namespace Soroban

variable {σ τ ε η μ : Type}

/-! ## Logs -/

/-- The events of a run: those of its committed transactions, in order. -/
def published (step : σ → τ → Except ε σ) (emits : σ → τ → List η) : σ → List τ → List η
  | _, []      => []
  | s, t :: ts =>
      match step s t with
      | .ok s'   => emits s t ++ published step emits s' ts
      | .error _ => published step emits s ts

/-- Apply events to a picture, the first one first. -/
def replay (apply : μ → η → μ) (m : μ) (es : List η) : μ := es.foldl apply m

variable {step : σ → τ → Except ε σ} {emits : σ → τ → List η} {apply : μ → η → μ}

@[simp] theorem replay_nil (m : μ) : replay apply m [] = m := rfl

@[simp] theorem replay_cons (m : μ) (e : η) (es : List η) : replay apply m (e :: es) = replay apply (apply m e) es := rfl

theorem replay_append (m : μ) (es fs : List η) : replay apply m (es ++ fs) = replay apply (replay apply m es) fs :=
  List.foldl_append

theorem published_cons_ok {s s' : σ} {t : τ} (ts : List τ) (h : step s t = .ok s') :
    published step emits s (t :: ts) = emits s t ++ published step emits s' ts := by
  simp [published, h]

theorem published_cons_error {s : σ} {t : τ} {e : ε} (ts : List τ) (h : step s t = .error e) :
    published step emits s (t :: ts) = published step emits s ts := by
  simp [published, h]

theorem published_append (s : σ) (ts us : List τ) :
    published step emits s (ts ++ us) = published step emits s ts ++ published step emits (run step s ts) us := by
  induction ts generalizing s with
  | nil => rfl
  | cons t ts ih =>
      rw [List.cons_append, run_cons]
      cases h : step s t with
      | ok s' => rw [published_cons_ok _ h, published_cons_ok _ h, exec_ok h, ih, List.append_assoc]
      | error e => rw [published_cons_error _ h, published_cons_error _ h, exec_error h, ih]

/-! ## Faithful logs -/

/-- **Replay rule.** If the events of every committed step keep the picture `R`-related to the state, so does the log
    of a run. -/
theorem replay_published_rel {R : σ → μ → Prop}
    (hstep : ∀ s t s' m, R s m → step s t = .ok s' → R s' (replay apply m (emits s t))) {s : σ} {m : μ}
    (ts : List τ) (h : R s m) : R (run step s ts) (replay apply m (published step emits s ts)) := by
  induction ts generalizing s m with
  | nil => exact h
  | cons t ts ih =>
      rw [run_cons]
      cases hok : step s t with
      | ok s' =>
          rw [published_cons_ok _ hok, replay_append, exec_ok hok]
          exact ih (hstep s t s' m h hok)
      | error e =>
          rw [published_cons_error _ hok, exec_error hok]
          exact ih h

/-- The events of a step take the picture before it to the picture after it, if it commits. -/
def Tells (step : σ → τ → Except ε σ) (emits : σ → τ → List η) (apply : μ → η → μ) (view : σ → μ) (s : σ) (t : τ) : Prop :=
  ∀ s', step s t = .ok s' → replay apply (view s) (emits s t) = view s'

/-- **Replay rule, for a picture that is a function of the state.** -/
theorem replay_published {Inv : σ → Prop} {view : σ → μ} (hp : Preserves step Inv)
    (htells : ∀ s t, Inv s → Tells step emits apply view s t) {s : σ} (ts : List τ) (h : Inv s) :
    replay apply (view s) (published step emits s ts) = view (run step s ts) := by
  let R : σ → μ → Prop := fun s m => Inv s ∧ m = view s
  have hR : ∀ s t s' m, R s m → step s t = .ok s' → R s' (replay apply m (emits s t)) := by
    rintro s t s' m ⟨hs, rfl⟩ hok
    exact ⟨hp s t s' hs hok, htells s t hs s' hok⟩
  have hfirst : R s (view s) := ⟨h, rfl⟩
  exact (replay_published_rel hR ts hfirst).2

/-- The same, where every step tells what it did. -/
theorem replay_of_tells {view : σ → μ} (htells : ∀ s t, Tells step emits apply view s t) (s : σ) (ts : List τ) :
    replay apply (view s) (published step emits s ts) = view (run step s ts) := by
  have hp : Preserves step (fun _ => True) := fun _ _ _ _ _ => trivial
  exact replay_published hp (fun s t _ => htells s t) ts trivial

/-- The picture after one transaction. -/
theorem replay_published_single {view : σ → μ} {s : σ} {t : τ} :
    replay apply (view s) (published step emits s [t]) = view (run step s [t]) ↔ Tells step emits apply view s t := by
  rw [run_cons, run_nil]
  constructor
  · intro h s' hok
    rw [published_cons_ok [] hok, exec_ok hok, replay_append] at h
    exact h
  · intro h
    cases hok : step s t with
    | ok s' =>
        rw [published_cons_ok [] hok, exec_ok hok, replay_append]
        exact h s' hok
    | error e =>
        rw [published_cons_error [] hok, exec_error hok]
        rfl

/-- **Replay rule for exact conditions.** The log is right after every prefix of a run iff each of its steps publishes what
    it did. -/
theorem replay_prefixes_iff {view : σ → μ} {s : σ} {ts : List τ} :
    (∀ us, us <+: ts → replay apply (view s) (published step emits s us) = view (run step s us)) ↔
      Along step (Tells step emits apply view) s ts := by
  induction ts generalizing s with
  | nil =>
      constructor
      · intro _
        trivial
      · intro _ us hus
        obtain rfl := List.prefix_nil.mp hus
        rfl
  | cons t ts ih =>
      have hsplit : ∀ us, published step emits s (t :: us) =
          published step emits s [t] ++ published step emits (exec step s t) us :=
        fun us => published_append s [t] us
      rw [along_cons, ← ih, ← replay_published_single]
      constructor
      · intro h
        have hone := h [t] (List.cons_prefix_cons.mpr ⟨rfl, List.nil_prefix⟩)
        refine ⟨hone, ?_⟩
        intro us hus
        have hmore := h (t :: us) (List.cons_prefix_cons.mpr ⟨rfl, hus⟩)
        rw [hsplit, replay_append, hone] at hmore
        exact hmore
      · rintro ⟨hone, hmore⟩ us hus
        cases us with
        | nil => rfl
        | cons u us =>
            obtain ⟨rfl, htail⟩ := List.cons_prefix_cons.mp hus
            rw [hsplit, replay_append, hone]
            exact hmore us htail

/-! ## Runs of a component -/

section Components

variable {δ : Type} {inner : μ → η → Except δ μ} {seen : σ → τ → List η} {view : σ → μ}

theorem run_eq_replay (m : μ) (us : List η) : run inner m us = replay (exec inner) m us := by
  induction us generalizing m with
  | nil => rfl
  | cons u us ih => rw [run_cons, replay_cons, ih]

/-- What a committed step is to a component: transactions of the component's own, all of them committed. -/
def SeenAs (step : σ → τ → Except ε σ) (inner : μ → η → Except δ μ) (seen : σ → τ → List η) (view : σ → μ) : Prop :=
  ∀ s t s', step s t = .ok s' →
    run inner (view s) (seen s t) = view s' ∧
      Along inner (fun m u => ∃ m', inner m u = .ok m') (view s) (seen s t)

/-- **Component rule, for the state**: what a run is to the component is a run of the component. -/
theorem SeenAs.run_eq (h : SeenAs step inner seen view) (s : σ) (ts : List τ) :
    run inner (view s) (published step seen s ts) = view (run step s ts) := by
  have htells : ∀ s t, Tells step seen (exec inner) view s t := by
    intro s t s' hok
    rw [← run_eq_replay]
    exact (h s t s' hok).1
  rw [run_eq_replay]
  exact replay_of_tells htells s ts

/-- **Component rule, for step properties**: `P` holds along the component's run iff it holds of what each committed
    step is to the component. -/
theorem SeenAs.along_iff (h : SeenAs step inner seen view) (P : μ → η → Prop) (s : σ) (ts : List τ) :
    Along inner P (view s) (published step seen s ts) ↔
      Along step (fun s t => (∃ s', step s t = .ok s') → Along inner P (view s) (seen s t)) s ts := by
  induction ts generalizing s with
  | nil => exact Iff.rfl
  | cons t ts ih =>
      rw [along_cons, ← ih]
      cases hok : step s t with
      | ok s' =>
          rw [published_cons_ok ts hok, along_append, (h s t s' hok).1, exec_ok hok]
          exact and_congr_left (fun _ => ⟨fun hP _ => hP, fun hP => hP ⟨s', rfl⟩⟩)
      | error e =>
          rw [published_cons_error ts hok, exec_error hok]
          refine (and_iff_right ?_).symm
          rintro ⟨s', hcontra⟩
          cases hcontra

/-- Every transaction of the component's run commits. -/
theorem SeenAs.committed (h : SeenAs step inner seen view) (s : σ) (ts : List τ) :
    Along inner (fun m u => ∃ m', inner m u = .ok m') (view s) (published step seen s ts) := by
  rw [h.along_iff]
  apply along_of_forall
  rintro s t ⟨s', hok⟩
  exact (h s t s' hok).2

end Components

/-! ## Logs of writes -/

/-- What an event writes: for each key, nothing or what is under it from now on. -/
abbrev Patch (κ ν : Type) := κ → Option (Option ν)

section Writes

variable {κ ν : Type}

/-- The store after a patch. -/
def Patch.write (m : Store κ ν) (p : Patch κ ν) : Store κ ν := fun k => (p k).getD (m k)

/-- Replay patches. -/
def overlay (m : Store κ ν) (ps : List (Patch κ ν)) : Store κ ν := replay Patch.write m ps

/-- What the last write of a key says. -/
def lastWrite (k : κ) : List (Patch κ ν) → Option (Option ν)
  | []      => none
  | p :: ps => (lastWrite k ps).or (p k)

theorem lastWrite_append (k : κ) (ps qs : List (Patch κ ν)) :
    lastWrite k (ps ++ qs) = (lastWrite k qs).or (lastWrite k ps) := by
  induction ps with
  | nil => simp [lastWrite]
  | cons p ps ih => rw [List.cons_append, lastWrite, lastWrite, ih, Option.or_assoc]

/-- **The last write of a key decides**; a key that is not written keeps what it had. -/
theorem overlay_apply (m : Store κ ν) (ps : List (Patch κ ν)) (k : κ) :
    overlay m ps k = (lastWrite k ps).getD (m k) := by
  unfold overlay
  induction ps generalizing m with
  | nil => rfl
  | cons p ps ih =>
      rw [replay_cons, ih, lastWrite]
      cases lastWrite k ps with
      | some u => rfl
      | none => rfl

/-- Patches with the same last write of every key leave the same store. -/
theorem overlay_congr {ps qs : List (Patch κ ν)} (h : ∀ k, lastWrite k ps = lastWrite k qs) (m : Store κ ν) :
    overlay m ps = overlay m qs := by
  funext k
  rw [overlay_apply, overlay_apply, h k]

/-- A picture whose events are patches of a store is replayed by replaying the patches. -/
theorem overlay_map {view : μ → Store κ ν} {patch : η → Patch κ ν}
    (h : ∀ m e, view (apply m e) = Patch.write (view m) (patch e)) (m : μ) (es : List η) :
    view (replay apply m es) = overlay (view m) (es.map patch) := by
  unfold overlay
  induction es generalizing m with
  | nil => rfl
  | cons e es ih => rw [replay_cons, ih, List.map_cons, replay_cons, h]

end Writes

/-! ## Redelivery -/

/-- What a subscriber of `es` can have been delivered, where it reads next, and how many events it has seen. It may go
    back any distance between two deliveries. -/
inductive Delivery (es : List η) : List η → Nat → Nat → Prop
  | start : Delivery es [] 0 0
  | next {d : List η} {p hi : Nat} (h : Delivery es d p hi) (hp : p < es.length) :
      Delivery es (d ++ [es[p]]) (p + 1) (max hi (p + 1))
  | rewind {d : List η} {p hi q : Nat} (h : Delivery es d p hi) (hq : q ≤ p) : Delivery es d q hi

variable {es d : List η} {p hi : Nat}

/-- A subscriber reads inside what it has seen. -/
theorem Delivery.bounds (h : Delivery es d p hi) : p ≤ hi ∧ hi ≤ es.length := by
  induction h with
  | start => exact ⟨Nat.le_refl 0, Nat.zero_le _⟩
  | next _ hp ih => omega
  | rewind _ hq ih => omega

/-- The part of a list between two positions. -/
def segment (es : List η) (p hi : Nat) : List η := (es.take hi).drop p

theorem take_append_segment (es : List η) {q hi : Nat} (h : q ≤ hi) : es.take q ++ segment es q hi = es.take hi := by
  have hq : (es.take hi).take q = es.take q := by rw [List.take_take, Nat.min_eq_left h]
  rw [segment, ← hq, List.take_append_drop]

theorem segment_cons (es : List η) {p hi : Nat} (hp : p < es.length) (h : p < hi) :
    segment es p hi = es[p] :: segment es (p + 1) hi := by
  have hlength : p < (es.take hi).length := by
    rw [List.length_take]
    omega
  rw [segment, List.drop_eq_getElem_cons hlength, List.getElem_take]
  rfl

theorem segment_append (es : List η) {q p hi : Nat} (h : q ≤ p) :
    (segment es q hi).take (p - q) ++ segment es p hi = segment es q hi := by
  have hp : segment es p hi = (segment es q hi).drop (p - q) := by
    unfold segment
    rw [List.drop_drop]
    congr 1
    omega
  rw [hp, List.take_append_drop]

theorem segment_self (es : List η) (hi : Nat) : segment es hi hi = [] := by
  rw [segment, List.drop_eq_nil_iff, List.length_take]
  exact Nat.min_le_left _ _

variable {κ ν : Type} {patch : η → Patch κ ν}

/-- **What is still to be delivered again makes up for what was delivered out of order**: after it, the last write of
    every key is that of the events seen. -/
theorem Delivery.lastWrite_eq (h : Delivery es d p hi) (k : κ) :
    lastWrite k ((d ++ segment es p hi).map patch) = lastWrite k ((es.take hi).map patch) := by
  induction h with
  | start => rfl
  | @next d p hi hd hp ih =>
      obtain ⟨hle, _⟩ := hd.bounds
      by_cases hlt : p < hi
      -- an event that was delivered before
      · rw [Nat.max_eq_left hlt, List.append_assoc, List.singleton_append, ← segment_cons es hp hlt]
        exact ih
      -- a new one
      · obtain rfl : p = hi := by omega
        rw [segment_self, List.append_nil] at ih
        rw [Nat.max_eq_right (Nat.le_succ p), segment_self, List.append_nil, List.map_append, lastWrite_append, ih,
          ← lastWrite_append, ← List.map_append, ← List.take_succ_eq_append_getElem hp]
  | @rewind d p hi q hd hq ih =>
      obtain ⟨hle, _⟩ := hd.bounds
      rw [List.map_append, lastWrite_append] at ih ⊢
      cases hq' : lastWrite k ((segment es q hi).map patch) with
      -- the key is written again on the way back to the front
      | some u =>
          rw [← take_append_segment es (Nat.le_trans hq hle), List.map_append, lastWrite_append, hq']
          rfl
      -- it is not, so that the last write was delivered
      | none =>
          rw [← segment_append es hq, List.map_append, lastWrite_append] at hq'
          rw [(Option.or_eq_none_iff.mp hq').1] at ih
          exact ih

/-- **A subscriber that has caught up has the picture one delivery of each event gives**, if events are patches. -/
theorem Delivery.overlay_eq (h : Delivery es d hi hi) (m : Store κ ν) :
    overlay m (d.map patch) = overlay m ((es.take hi).map patch) := by
  apply overlay_congr
  intro k
  have hlast : lastWrite k ((d ++ segment es hi hi).map patch) = lastWrite k ((es.take hi).map patch) := h.lastWrite_eq k
  rwa [segment_self, List.append_nil] at hlast

end Soroban
