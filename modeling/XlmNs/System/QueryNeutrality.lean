import XlmNs.Soroban.Trace
import XlmNs.Subdomain.Neutrality
import XlmNs.System.RegistrySubdomain

/-!
# `System.QueryNeutrality` — can a subdomain query be noticed later?

A query that finds its parent inactive takes the parent's namespace out of the storage and commits. The parent may
be renewed in its grace period: had nobody asked in between, its subdomains would be back. `query_neutral_iff`: an
added query changes no later answer exactly when no later call finds something that is gone
(`Subdomain.Notices`). The history variable is the parent whose namespace is gone, until it is registered anew.
-/

namespace XlmNs.RegistrySubdomain

open Soroban
open Subdomain (lacking without under Tidy)

variable {ω : Type} {out : Outside ω} {registry : Address} {env : Env} {s s' : State ω}

/-! ## Observations -/

/-- A transaction of one of the two contracts, or a query of the subdomain contract that never writes. -/
inductive Visit
  | tx (t : Tx Call)
  | subdomainsForOwner (owner : Address)
  | maxDepth
  | getVersion

/-- A view leaves the state as it is. -/
def visit (out : Outside ω) (registry : Address) (s : State ω) : Visit → Except Failure (State ω)
  | .tx t => step out registry s t
  | .subdomainsForOwner _ | .maxDepth | .getVersion => .ok s

/-- What a visitor of the subdomain contract is shown. -/
inductive Shown
  | nothing
  | answer (a : Subdomain.Answer)
  | names (fqdns : List Bytes)
  | number (n : UInt32)
deriving DecidableEq

/-- What a visitor is shown. -/
def shows (out : Outside ω) (registry : Address) (s : State ω) : Visit → Shown
  | .tx ⟨env, .subdomain c⟩ =>
      .answer (Subdomain.answer (theRegistry out registry) env s.subdomain (s.registry, s.world) c)
  | .tx ⟨_, .registry _⟩ => .nothing
  | .subdomainsForOwner owner => .names (Subdomain.subdomainsForOwner s.subdomain owner)
  | .maxDepth => .number (Subdomain.maxDepth s.subdomain)
  | .getVersion => .number (Subdomain.getVersion s.subdomain)

/-- The two contracts with the namespace of a parent gone, or none. -/
def bereft (gone : Option Bytes) (s : State ω) : State ω := { s with subdomain := lacking gone s.subdomain }

/-- What is still gone after a committed visit. -/
def noteRegistration (_ : State ω) (v : Visit) (_ : State ω) : Option Bytes → Option Bytes
  | none => none
  | some p =>
      match v with
      | .tx ⟨_, .subdomain c⟩ => c.leaves p
      | _                     => some p

/-- **The visitor notices that the namespace of `p` is gone**, if it is. -/
def NoticesLoss (out : Outside ω) (registry : Address) (s : State ω) (p : Bytes) : Visit → Prop
  | .tx ⟨env, .subdomain c⟩ =>
      Subdomain.Notices (theRegistry out registry) env s.subdomain (s.registry, s.world) p c
  | .subdomainsForOwner owner =>
      ∃ fqdn record, s.subdomain.subdomain fqdn = some record ∧ record.parent = p ∧ record.owner = owner
  | .tx ⟨_, .registry _⟩ | .maxDepth | .getVersion => False

/-- No visitor notices, or nothing is gone. -/
def Unnoticed (out : Outside ω) (registry : Address) (sg : State ω × Option Bytes) (v : Visit) : Prop :=
  ∀ p ∈ sg.2, ¬ NoticesLoss out registry sg.1 p v

/-- The storage is tidy, and something is gone only if there is a registry to ask. -/
structure Kept (gone : Option Bytes) (s : State ω) : Prop where
  tidy       : Tidy s.subdomain
  configured : ∀ p ∈ gone, s.subdomain.registryContract ≠ none

/-! ## One visit -/

/-- An owner's list is shorter iff one of the subdomains gone is on it. -/
theorem subdomainsForOwner_without {u : Subdomain.State} (h : Tidy u) (p : Bytes) (owner : Address) :
    Subdomain.subdomainsForOwner (without p u) owner = Subdomain.subdomainsForOwner u owner ↔
      ¬ ∃ fqdn record, u.subdomain fqdn = some record ∧ record.parent = p ∧ record.owner = owner := by
  -- an owner's list loses what is under `p`, so it stays iff nothing on it is
  have hlist : Subdomain.subdomainsForOwner (without p u) owner
      = (Subdomain.subdomainsForOwner u owner).filter (fun fqdn => !under u.subdomain p fqdn) :=
    Index.keys_prune _ u.ownerSubdomains owner
  rw [hlist, List.filter_eq_self]
  constructor
  · rintro hall ⟨fqdn, record, hrecord, hparent, howner⟩
    have hkept := hall fqdn ((h.owned.mem_iff owner fqdn).mpr ⟨record, hrecord, howner⟩)
    rw [Subdomain.under_eq_true.mpr ⟨record, hrecord, hparent⟩] at hkept
    cases hkept
  · intro hnone fqdn hfqdn
    obtain ⟨record, hrecord, howner⟩ := (h.owned.mem_iff owner fqdn).mp hfqdn
    rw [Subdomain.under_of_some hrecord, decide_eq_false]
    · rfl
    · exact fun hparent => hnone ⟨fqdn, record, hrecord, hparent, howner⟩

theorem shows_bereft {gone : Option Bytes} (h : Kept gone s) (v : Visit) :
    shows out registry (bereft gone s) v = shows out registry s v ↔ Unnoticed out registry (s, gone) v := by
  cases gone with
  | none =>
      refine iff_of_true rfl ?_
      rintro _ ⟨⟩
  | some p =>
      have hone : Unnoticed out registry (s, some p) v ↔ ¬ NoticesLoss out registry s p v := by
        simp [Unnoticed]
      rw [hone]
      cases v with
      | tx t =>
          obtain ⟨env, c⟩ := t
          cases c with
          | registry c => exact iff_of_true rfl id
          | subdomain c =>
              refine Iff.trans ?_ (Subdomain.answer_without h.tidy (h.configured p rfl) c)
              exact ⟨Shown.answer.inj, congrArg Shown.answer⟩
      | subdomainsForOwner owner =>
          refine Iff.trans ?_ (subdomainsForOwner_without h.tidy p owner)
          exact ⟨Shown.names.inj, congrArg Shown.names⟩
      | maxDepth => exact iff_of_true rfl id
      | getVersion => exact iff_of_true rfl id

/-- **A visit that goes unnoticed leaves the same**, but for what is still gone. -/
theorem visit_bereft {gone : Option Bytes} (h : Kept gone s) {v : Visit}
    (hun : Unnoticed out registry (s, gone) v) (s' : State ω) :
    visit out registry (bereft gone s) v
      = (visit out registry s v).map (bereft (noteRegistration s v s' gone)) := by
  cases gone with
  | none =>
      show visit out registry s v = (visit out registry s v).map id
      cases visit out registry s v <;> rfl
  | some p =>
      cases v with
      | tx t =>
          obtain ⟨env, c⟩ := t
          cases c with
          | registry c =>
              show embed _ _ (Registry.step out.toOutside registry (s.registry, s.world) ⟨env, c⟩)
                = (embed _ _ (Registry.step out.toOutside registry (s.registry, s.world) ⟨env, c⟩)).map _
              cases Registry.step out.toOutside registry (s.registry, s.world) ⟨env, c⟩ <;> rfl
          | subdomain c =>
              -- the registry does not see the subdomain contract's storage, so it answers both alike
              have hstep := Subdomain.step_without h.tidy (h.configured p rfl) (hun p rfl)
              show embed _ _ (Subdomain.step (theRegistry out registry) (s.registry, s.world)
                  (without p s.subdomain) ⟨env, c⟩)
                = (embed _ _ (Subdomain.step (theRegistry out registry) (s.registry, s.world) s.subdomain
                    ⟨env, c⟩)).map _
              rw [hstep]
              cases Subdomain.step (theRegistry out registry) (s.registry, s.world) s.subdomain ⟨env, c⟩ <;> rfl
      | subdomainsForOwner owner => rfl
      | maxDepth => rfl
      | getVersion => rfl

/-- Tidiness survives every visit. -/
theorem preserves_tidy (out : Outside ω) (registry : Address) :
    Preserves (visit out registry) (fun s => Tidy s.subdomain) := by
  rintro s v s' h hok
  cases v with
  | tx t =>
      obtain ⟨env, c⟩ := t
      cases c with
      | registry c =>
          rw [(step_registry_eq_ok.mp hok).1]
          exact h
      | subdomain c =>
          obtain ⟨_, _, hstep⟩ := step_subdomain_eq_ok.mp hok
          exact Subdomain.preserves_tidy (theRegistry out registry) s.subdomain ((s.registry, s.world), ⟨env, c⟩)
            s'.subdomain h hstep
  | subdomainsForOwner | maxDepth | getVersion =>
      cases hok
      exact h

theorem configured_visit {v : Visit} (h : s.subdomain.registryContract ≠ none)
    (hok : visit out registry s v = .ok s') : s'.subdomain.registryContract ≠ none := by
  cases v with
  | tx t =>
      obtain ⟨env, c⟩ := t
      cases c with
      | registry c =>
          rw [(step_registry_eq_ok.mp hok).1]
          exact h
      | subdomain c =>
          obtain ⟨_, _, hstep⟩ := step_subdomain_eq_ok.mp hok
          rw [Subdomain.step_registryContract hstep]
          -- the registry can be replaced, but not taken away
          cases c.connects with
          | none => exact h
          | some r => exact Option.some_ne_none r
  | subdomainsForOwner | maxDepth | getVersion =>
      cases hok
      exact h

/-- What is still gone was gone before. -/
theorem mem_noteRegistration {gone : Option Bytes} {v : Visit} {p : Bytes}
    (h : p ∈ noteRegistration s v s' gone) : p ∈ gone := by
  cases gone with
  | none => exact h
  | some q =>
      cases v with
      | tx t =>
          obtain ⟨env, c⟩ := t
          cases c with
          | registry c => exact h
          | subdomain c => exact Subdomain.mem_leaves h
      | subdomainsForOwner | maxDepth | getVersion => exact h

theorem Kept.visit {gone : Option Bytes} {v : Visit} (h : Kept gone s) (hok : visit out registry s v = .ok s') :
    Kept (noteRegistration s v s' gone) s' :=
  ⟨preserves_tidy out registry s v s' h.tidy hok,
    fun p hp => configured_visit (h.configured p (mem_noteRegistration hp)) hok⟩

/-! ## Whole runs -/

/-- The queries that purge. -/
inductive Query
  | record (fqdn : Bytes)
  | existsRecord (fqdn : Bytes)
  | parent (name : Bytes)
  | subdomainsForParent (name : Bytes)

/-- The entrypoint of a query. -/
def Query.call : Query → Subdomain.Call
  | .record fqdn              => .record fqdn
  | .existsRecord fqdn        => .existsRecord fqdn
  | .parent name              => .parent name
  | .subdomainsForParent name => .subdomainsForParent name

/-- The parent a query asks the registry about. -/
def Query.subject (u : Subdomain.State) : Query → Option Bytes
  | .record fqdn | .existsRecord fqdn          => (u.subdomain fqdn).map (fun record => record.parent)
  | .parent name | .subdomainsForParent name => some name

/-- The parent a query finds inactive, if any. -/
def inactive (out : Outside ω) (registry : Address) (env : Env) (s : State ω) (q : Query) : Option Bytes :=
  (q.subject s.subdomain).filter (fun p =>
    !(Subdomain.ensureParentIsActive (theRegistry out registry) env s.subdomain (s.registry, s.world) p).2)

/-- **A query takes out the namespace of the parent it finds inactive**, and writes nothing else. -/
theorem query_bereaves (h : Tidy s.subdomain) (q : Query) :
    exec (visit out registry) s (.tx ⟨env, .subdomain q.call⟩) = bereft (inactive out registry env s q) s := by
  have hrecord : ∀ fqdn, (Subdomain.record (theRegistry out registry) env s.subdomain (s.registry, s.world) fqdn).1
      = lacking (inactive out registry env s (.record fqdn)) s.subdomain := by
    intro fqdn
    rw [h.record_state]
    have hsubject : (Query.record fqdn).subject s.subdomain
        = (s.subdomain.subdomain fqdn).map (fun record => record.parent) := rfl
    unfold inactive
    rw [hsubject]
    cases s.subdomain.subdomain fqdn with
    | none => rfl
    | some record => exact Subdomain.ensure_lacks h.toIndexed record.parent
  -- all four queries write what the check for an active parent writes
  cases q with
  | record fqdn => exact congrArg (fun u => { s with subdomain := u }) (hrecord fqdn)
  | existsRecord fqdn => exact congrArg (fun u => { s with subdomain := u }) (hrecord fqdn)
  | parent name =>
      refine congrArg (fun u => { s with subdomain := u }) ?_
      exact (Subdomain.parent_state _ _ _ _ _).trans (Subdomain.ensure_lacks h.toIndexed name)
  | subdomainsForParent name =>
      refine congrArg (fun u => { s with subdomain := u }) ?_
      exact (Subdomain.subdomainsForParent_state _ _ _ _ _).trans (Subdomain.ensure_lacks h.toIndexed name)

/-- A parent is found inactive only where there is a registry to ask. -/
theorem configured_of_inactive {q : Query} {p : Bytes} (h : p ∈ inactive out registry env s q) :
    s.subdomain.registryContract ≠ none := by
  intro hnone
  have hinactive := (Option.filter_eq_some_iff.mp h).2
  simp [Subdomain.ensureParentIsActive, hnone] at hinactive

theorem tidy_run (out : Outside ω) (registry : Address) (w : ω) (ts : List (Tx Call)) :
    Tidy (run (step out registry) (deployed w) ts).subdomain := by
  have hp : Preserves (step out registry) (fun s => Tidy s.subdomain) :=
    fun s t s' h hok => preserves_tidy out registry s (.tx t) s' h hok
  exact hp.run ts Subdomain.tidy_empty

/-- **An added subdomain query is neutral iff nobody notices.** After any run of the two contracts, a query in any
    environment: all that the subdomain contract answers in whatever follows is the same with and without it iff, in
    the run without, no visitor finds the parent that the query found inactive, its list or one of its subdomains,
    and goes on with it, before that parent is registered anew. -/
theorem query_neutral_iff (out : Outside ω) (registry : Address) (w : ω) (pre : List (Tx Call)) (env : Env)
    (q : Query) (post : List Visit) :
    let s := run (step out registry) (deployed w) pre
    trace (visit out registry) (shows out registry) (exec (visit out registry) s (.tx ⟨env, .subdomain q.call⟩)) post
        = trace (visit out registry) (shows out registry) s post ↔
      Along (withHistory (visit out registry) noteRegistration) (Unnoticed out registry)
        (s, inactive out registry env s q) post := by
  intro s
  have htidy : Tidy s.subdomain := tidy_run out registry w pre
  rw [query_bereaves htidy]
  exact trace_view_iff_along (I := Kept) (fun _ _ v h => shows_bereft h v)
    (fun _ _ _ s' h hun => visit_bereft h hun s') (fun _ _ _ _ h hok => h.visit hok)
    ⟨htidy, fun _ hp => configured_of_inactive hp⟩ post

namespace LateRenewal

open Cast

/-- The subdomain contract is connected, and Alice has her name until 5000 and a subdomain below it. -/
def setUp : List (Tx Call) :=
  [⟨⟨1000, [admin], none⟩, .subdomain (.initializeContract admin)⟩,
   ⟨⟨1000, [admin], none⟩, .subdomain (.setRegistryContract Cast.registry)⟩,
   ⟨⟨1000, [alice], none⟩, .registry (.register aliceXlm alice none none 1000 5000 9000)⟩,
   ⟨⟨1000, [alice], none⟩, .subdomain (.registerParent aliceXlm alice)⟩,
   ⟨⟨1000, [alice], none⟩, .subdomain (.create (ascii "pay") aliceXlm alice alice 1000)⟩]

/-- She renews in the grace period, and somebody asks whether the subdomain exists. -/
def renewal : List Visit :=
  [.tx ⟨⟨7000, [alice], none⟩, .registry (.renew aliceXlm alice 20000 25000 7000)⟩,
   .tx ⟨⟨8000, [], none⟩, .subdomain (.existsRecord payAliceXlm)⟩]

/-- The two contracts after that. -/
def before : State Unit := run (step nothingOutside Cast.registry) (deployed ()) setUp

/-- The same after somebody asked in the grace period. -/
def queried : State Unit :=
  exec (visit nothingOutside Cast.registry) before (.tx ⟨⟨6000, [], none⟩, .subdomain (.existsRecord payAliceXlm)⟩)

/-- **Neutrality fails on the code**: the query in the grace period deletes the subdomain the renewal would keep. -/
theorem query_deletes_the_subdomain :
    trace (visit nothingOutside Cast.registry) (shows nothingOutside Cast.registry) before renewal
      = [.nothing, .answer (.found true)] ∧
    trace (visit nothingOutside Cast.registry) (shows nothingOutside Cast.registry) queried renewal
      = [.nothing, .answer (.found false)] := by
  decide +kernel

end LateRenewal

end XlmNs.RegistrySubdomain
