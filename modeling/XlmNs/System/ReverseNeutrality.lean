import XlmNs.Resolver.Forgetting
import XlmNs.Soroban.Trace
import XlmNs.System.RegistryResolver

/-!
# `System.ReverseNeutrality` — can a reverse query be noticed later?

A reverse query deletes the mappings it finds outdated. A mapping to a name in its grace period is outdated, until the
name is renewed: had nobody asked in between, it would then be answered again. `reverse_neutral_iff`: an added query
changes no later answer exactly when no later query would be answered through a mapping it deleted and that nobody has
written since (`Unnoticed`).
-/

namespace XlmNs.RegistryResolver

open Soroban
open Resolver (Lost forget)

variable {ω : Type} {out : Outside ω} {d : Deployment} {env : Env} {s s' : State ω} {L : Lost}

/-! ## Observations -/

/-- What a transaction answers, if it is a reverse query. -/
def answers (out : Outside ω) (d : Deployment) (s : State ω) (t : Tx Call) : Option (List (Option Bytes)) :=
  match t.call with
  | .resolver c => Resolver.answers (theRegistry out d) t.env s.resolver (s.registry, s.world) c
  | .registry _ => none

/-- The two contracts with some mappings of the resolver forgotten. -/
def forgetting (L : Lost) (s : State ω) : State ω := { s with resolver := forget L s.resolver }

/-- The mappings forgotten after a committed transaction: those it writes are remembered again. -/
def noteWrites (_ : State ω) (t : Tx Call) (_ : State ω) (L : Lost) : Lost :=
  match t.call with
  | .resolver c => L.after c
  | .registry _ => L

/-- **The transaction does not notice what is forgotten**: a reverse query of an address finds the same first live
    mapping without it. -/
def Unnoticed (out : Outside ω) (d : Deployment) (sl : State ω × Lost) (t : Tx Call) : Prop :=
  match t.call with
  | .resolver c => Resolver.Unnoticed (theRegistry out d) t.env sl.1.resolver (sl.1.registry, sl.1.world) sl.2 c
  | .registry _ => True

/-! ## One step -/

theorem answers_forgetting (L : Lost) (s : State ω) (t : Tx Call) :
    answers out d (forgetting L s) t = answers out d s t ↔ Unnoticed out d (s, L) t := by
  obtain ⟨env, c⟩ := t
  cases c with
  | resolver c => exact Resolver.answers_forget L s.resolver c
  | registry c => exact iff_of_true rfl trivial

/-- `clear_reverse_record` compares before it removes, and finds nothing forgotten. -/
theorem clearReverseRecord_forget (L : Lost) (r : Resolver.State) (name : Bytes) (previousOwner : Address) :
    Resolver.clearReverseRecord env (forget L r) name previousOwner
      = (Resolver.clearReverseRecord env r name previousOwner).map (forget L) := by
  simp only [Resolver.clearReverseRecord, map_bind_outcome, Resolver.cleanup_forget]
  rfl

/-- A registry transaction does not read the mappings. -/
theorem registry_step_forget (L : Lost) (s : State ω) (t : Tx Registry.Call) :
    Registry.step (theResolver out d) d.registry (s.registry, forget L s.resolver, s.world) t
      = (Registry.step (theResolver out d) d.registry (s.registry, s.resolver, s.world) t).map
          (fun (g, r, w) => (g, forget L r, w)) := by
  refine Registry.step_map_world (f := fun rw : Resolver.State × ω => (forget L rw.1, rw.2)) ?_ ?_ s.registry
    (s.resolver, s.world) t
  · intro env nft call rw
    simp only [theResolver, Option.map_map]
    rfl
  · intro env resolver name previousOwner rw
    simp only [theResolver]
    split
    · rw [clearReverseRecord_forget]
      cases Resolver.clearReverseRecord env rw.1 name previousOwner <;> rfl
    · simp only [Option.map_map]
      rfl

/-- **A transaction that does not notice leaves the same but for what is still forgotten.** -/
theorem step_forgetting {t : Tx Call} (h : Unnoticed out d (s, L) t) (s' : State ω) :
    step out d (forgetting L s) t = (step out d s t).map (forgetting (noteWrites s t s' L)) := by
  obtain ⟨env, c⟩ := t
  cases c with
  | resolver c =>
      have hstep : Resolver.step (theRegistry out d) (s.registry, s.world) (forget L s.resolver) ⟨env, c⟩ = _ :=
        Resolver.step_unnoticed h
      show embed _ _ (Resolver.step (theRegistry out d) (s.registry, s.world) (forget L s.resolver) ⟨env, c⟩)
        = (embed _ _ (Resolver.step (theRegistry out d) (s.registry, s.world) s.resolver ⟨env, c⟩)).map _
      rw [hstep]
      cases Resolver.step (theRegistry out d) (s.registry, s.world) s.resolver ⟨env, c⟩ <;> rfl
  | registry c =>
      show embed _ _ (Registry.step (theResolver out d) d.registry (s.registry, forget L s.resolver, s.world)
          ⟨env, c⟩)
        = (embed _ _ (Registry.step (theResolver out d) d.registry (s.registry, s.resolver, s.world)
            ⟨env, c⟩)).map _
      rw [registry_step_forget]
      cases Registry.step (theResolver out d) d.registry (s.registry, s.resolver, s.world) ⟨env, c⟩ <;> rfl

/-! ## Whole runs -/

/-- The reverse queries. -/
inductive Query
  | reverse (address : Bytes)
  | batchReverse (addresses : List Bytes)

/-- The entrypoint of a query. -/
def Query.call : Query → Resolver.Call
  | .reverse address        => .reverse address
  | .batchReverse addresses => .batchReverse addresses

/-- The addresses it looks up. -/
def Query.addresses : Query → List Bytes
  | .reverse address        => [address]
  | .batchReverse addresses => addresses

/-- The outdated mappings a query finds. -/
def outdated (out : Outside ω) (d : Deployment) (env : Env) (s : State ω) (q : Query) : Lost :=
  Resolver.outdated (theRegistry out d) env s.resolver (s.registry, s.world) q.addresses

/-- **A reverse query only forgets outdated mappings.** -/
theorem query_forgets (s : State ω) (q : Query) :
    exec (step out d) s ⟨env, .resolver q.call⟩ = forgetting (outdated out d env s q) s := by
  cases q with
  | reverse address =>
      show ({ s with resolver := (Resolver.reverse _ _ _ _ _).1 } : State ω) = _
      rw [Resolver.reverse_forgets]
      rfl
  | batchReverse addresses =>
      show ({ s with resolver := (Resolver.batchReverse _ _ _ _ _).1 } : State ω) = _
      rw [Resolver.batchReverse_forgets]
      rfl

/-- **An added reverse query is neutral iff nobody notices.** After any run of the two contracts, a query in any
    environment: the reverse queries of whatever follows answer the same with and without it iff, in the run without,
    none of them is answered through a mapping the added query finds outdated, unless it has been written anew. -/
theorem reverse_neutral_iff (out : Outside ω) (d : Deployment) (admin : Address) (w : ω) (pre : List (Tx Call))
    (env : Env) (q : Query) (post : List (Tx Call)) :
    let s := run (step out d) (deployed d admin w) pre
    trace (step out d) (answers out d) (exec (step out d) s ⟨env, .resolver q.call⟩) post
        = trace (step out d) (answers out d) s post ↔
      Along (withHistory (step out d) noteWrites) (Unnoticed out d) (s, outdated out d env s q) post := by
  intro s
  rw [query_forgets]
  exact trace_view_iff_along (I := fun _ _ => True) (fun L s t _ => answers_forgetting L s t)
    (fun _ _ _ s' _ hun => step_forgetting hun s') (fun _ _ _ _ _ _ => trivial) trivial post

namespace LateRenewal

open Cast

/-- Alice's wallet. -/
def wallet : Bytes := ascii "GWALLET"

/-- Alice registers her name until 5000 and points it at her wallet. -/
def setUp : List (Tx Call) :=
  [⟨⟨1000, [alice], none⟩, .registry (.register aliceXlm alice none none 1000 5000 9000)⟩,
   ⟨⟨1000, [alice], none⟩, .resolver (.setRecord aliceXlm alice wallet 1000)⟩]

/-- She renews in the grace period, and somebody looks her wallet up. -/
def renewal : List (Tx Call) :=
  [⟨⟨7000, [alice], none⟩, .registry (.renew aliceXlm alice 20000 25000 7000)⟩,
   ⟨⟨8000, [], none⟩, .resolver (.reverse wallet)⟩]

/-- The two contracts after that. -/
def before : State Unit := run (step nothingOutside contracts) (deployed contracts alice ()) setUp

/-- The same after a lookup in the grace period. -/
def queried : State Unit := exec (step nothingOutside contracts) before ⟨⟨6000, [], none⟩, .resolver (.reverse wallet)⟩

/-- **Neutrality fails on the code**: the lookup in the grace period deletes the mapping the renewal would revive. -/
theorem query_erases_the_mapping :
    trace (step nothingOutside contracts) (answers nothingOutside contracts) before renewal
      = [none, some [some aliceXlm]] ∧
    trace (step nothingOutside contracts) (answers nothingOutside contracts) queried renewal = [none, some [none]] := by
  decide +kernel

end LateRenewal

end XlmNs.RegistryResolver
