import XlmNs.Registrar.Correctness.EventLog
import XlmNs.Registry.Events
import XlmNs.System.RegistrarRegistry

/-!
# `System.EventLogs` — the logs of registrar and registry, read together

The registry publishes transfers and burnings, the registrar sales and renewals: neither log alone tells who owns a
name until when. `holdings_replay_iff`: both together do, after every part of a run, iff nobody but the registrar
registers in the registry, and nobody renews there other than to the bounds already stored.
-/

namespace XlmNs.RegistrarRegistry

open Soroban

variable {ω : Type} {out : Registry.Outside ω} {d : Deployment} {env : Env} {s s' : State ω}

/-- What the two contracts publish. -/
inductive Event
  | registrar (e : Registrar.Event)
  | registry (e : Registry.Event)
deriving DecidableEq, Repr

/-- What the registry publishes in the call a registrar invocation makes. -/
def nestedEvents (s : State ω) : Registrar.Call → List Registry.Event
  | .register label .. =>
      match buildXlmName label with
      | .ok name => Registry.burned s.registry name
      | .error _ => []
  | _ => []

/-- What a transaction publishes if it commits: the nested call comes first. -/
def events (s : State ω) (t : Tx Call) : List Event :=
  match t.call with
  | .registry c  => (Registry.events s.registry ⟨t.env, c⟩).map .registry
  | .registrar c =>
      (nestedEvents s c).map .registry ++ (Registrar.events s.registrar ⟨t.env, c⟩).map .registrar

/-- The two logs of a run, in the order of publication. -/
def eventLog (out : Registry.Outside ω) (d : Deployment) (s : State ω) (ts : List (Tx Call)) : List Event :=
  published (step out d) events s ts

/-! ## A follower of both -/

/-- Who holds a name, and until when. -/
structure Holding where
  owner             : Address
  expiresAt         : UInt64
  gracePeriodEndsAt : UInt64
deriving DecidableEq, Repr

/-- Other bounds for a name. -/
def rebound (m : Store Bytes Holding) (name : Bytes) (expiresAt gracePeriodEndsAt : UInt64) : Store Bytes Holding :=
  Function.update m name ((m name).map fun h => ⟨h.owner, expiresAt, gracePeriodEndsAt⟩)

/-- Apply an event. -/
def applyEvent (m : Store Bytes Holding) : Event → Store Bytes Holding
  | .registry (.burn name _) => m.remove name
  | .registry (.transfer name _ newOwner) =>
      Function.update m name ((m name).map fun h => ⟨newOwner, h.expiresAt, h.gracePeriodEndsAt⟩)
  | .registrar (.reg label owner _ expiresAt gracePeriodEndsAt) =>
      match buildXlmName label with
      | .ok name => m.set name ⟨owner, expiresAt, gracePeriodEndsAt⟩
      | .error _ => m
  | .registrar (.renewed name _ _ expiresAt gracePeriodEndsAt) => rebound m name expiresAt gracePeriodEndsAt
  | .registrar (.grrenew name _ _ expiresAt gracePeriodEndsAt) => rebound m name expiresAt gracePeriodEndsAt
  | _ => m

/-- What an entry says about the holder. -/
def holding (e : RegistryEntry) : Holding := ⟨e.owner, e.expiresAt, e.gracePeriodEndsAt⟩

/-- The holdings in the registry. -/
def holdings (s : State ω) : Store Bytes Holding := s.registry.entry.view holding

/-- **Through the registrar**: what a call must be for the logs to tell the holdings. -/
def TellsHoldings (s : State ω) : Call → Prop
  | .registry (.register ..) => False
  | .registry (.renew name _ expiresAt gracePeriodEndsAt _) =>
      ∀ e, s.registry.entry name = some e → e.expiresAt = expiresAt ∧ e.gracePeriodEndsAt = gracePeriodEndsAt
  | _ => True

/-! ## Registry invocations -/

theorem holdings_eq {name : Bytes} {e : RegistryEntry} (he : s.registry.entry name = some e) :
    holdings s name = some (holding e) := Store.view_eq _ he

theorem holdings_of_set {name : Bytes} {e : RegistryEntry} (hentry : s'.registry.entry = s.registry.entry.set name e) :
    holdings s' = (holdings s).set name (holding e) := Store.view_of_set _ hentry rfl

/-- Calls that change no tenure publish nothing a follower keeps. -/
theorem replay_quiet {c : Registry.Call} (h : c.isLifecycle = false) (m : Store Bytes Holding) (g : Registry.State) :
    replay applyEvent m ((Registry.events g ⟨env, c⟩).map .registry) = m := by
  cases c with
  | register | transfer | updateOwner | renew | burn => cases h
  | initializeContract | setNftContract | setDisputeAdmin | setResolver | setTargetAddress | setMetadata => rfl
  | upgrade migrationData =>
      unfold Registry.events
      cases g.admin <;> rfl
  | lockName name caller lockedUntil lockReason nowUnix =>
      unfold Registry.events
      cases g.disputeAdmin <;> rfl
  | unlockName name caller =>
      cases hadmin : g.disputeAdmin with
      | none =>
          simp only [Registry.events, hadmin]
          rfl
      | some admin =>
          cases hlock : g.lock name with
          | none =>
              simp only [Registry.events, hadmin, hlock]
              rfl
          | some lock =>
              simp only [Registry.events, hadmin, hlock]
              rfl

/-- The burning of an entry, told. -/
theorem replay_burned (s : State ω) (name : Bytes) :
    replay applyEvent (holdings s) ((Registry.burned s.registry name).map .registry) = (holdings s).remove name := by
  cases he : s.registry.entry name with
  | some e =>
      rw [Registry.burned_eq he]
      rfl
  | none =>
      have hnone : holdings s name = none := by
        rw [holdings, Store.view, he]
        rfl
      rw [Registry.burned, he, Store.remove_absent hnone]
      rfl

/-- **A registry invocation tells the holdings iff it goes through the registrar, or changes nothing of them.** -/
theorem registry_told_iff {c : Registry.Call} (h : Registry.Change env s.registry s'.registry c) :
    replay applyEvent (holdings s) ((Registry.events s.registry ⟨env, c⟩).map .registry) = holdings s' ↔
      TellsHoldings s (.registry c) := by
  cases h with
  | frame hquiet hentry _ =>
      rw [replay_quiet hquiet]
      apply iff_of_true
      · rw [holdings, holdings, hentry]
      · cases c with
        | register | renew => cases hquiet
        | _ => trivial
  | rewrite hquiet he _ _ howner _ hexp hgrace hentry _ =>
      rw [replay_quiet hquiet]
      apply iff_of_true
      · rw [holdings, holdings, hentry]
        apply (Store.view_edit _ he _).symm
        simp only [holding, howner, hexp, hgrace]
      · cases c with
        | register | renew => cases hquiet
        | _ => trivial
  | @renew name caller expiresAt gracePeriodEndsAt nowUnix e he _ _ _ _ _ _ hentry _ =>
      have hold := holdings_eq he
      rw [holdings_of_set hentry]
      show holdings s = _ ↔ ∀ e', s.registry.entry name = some e' → _
      rw [Store.forall_value_iff he, eq_comm, Store.set, Function.update_eq_self_iff, hold]
      simp only [holding, Option.some.injEq, Holding.mk.injEq, true_and]
      exact and_congr eq_comm eq_comm
  | @move _ name newOwner e he _ hcall hentry _ =>
      have hevents : Registry.events s.registry ⟨env, c⟩ = [.transfer name e.owner newOwner] := by
        rcases hcall with ⟨nowUnix, rfl⟩ | ⟨caller, rfl⟩
        · exact Registry.moved_eq he newOwner
        · exact Registry.moved_eq he newOwner
      rw [hevents]
      apply iff_of_true
      · rw [holdings_of_set hentry]
        show Function.update (holdings s) name ((holdings s name).map _) = _
        rw [holdings_eq he]
        rfl
      · rcases hcall with ⟨nowUnix, rfl⟩ | ⟨caller, rfl⟩
        · trivial
        · trivial
  | @burn name caller nowUnix e he _ _ hentry _ =>
      apply iff_of_true
      · have hremoved : holdings s' = (holdings s).remove name := by
          rw [holdings, hentry]
          exact Store.view_remove holding s.registry.entry name
        rw [hremoved]
        exact replay_burned s name
      · trivial
  -- the follower hears of the entry replaced, and not of the new one
  | @register name owner targetAddress metadataUri nowUnix expiresAt gracePeriodEndsAt _ _ _ _ _ hentry _ =>
      apply iff_of_false
      · intro heq
        have hremoved : holdings s' = (holdings s).remove name := heq.symm.trans (replay_burned s name)
        rw [holdings_of_set hentry] at hremoved
        have hname := congrFun hremoved name
        rw [Store.remove_self, Store.set_self] at hname
        cases hname
      · exact not_false

/-! ## Registrar invocations -/

theorem replay_reserve (m : Store Bytes Holding) (r : Registrar.State) (label : Bytes) :
    applyEvent m (.registrar (Registrar.reserveEvent r label)) = m := by
  unfold Registrar.reserveEvent
  split <;> rfl

theorem replay_load (m : Store Bytes Holding) (r : Registrar.State) (labels : List Bytes) :
    replay applyEvent m ((Registrar.loadEvents r labels).map .registrar) = m := by
  induction labels generalizing r with
  | nil => rfl
  | cons label labels ih =>
      unfold Registrar.loadEvents
      cases validateLabelSoroban label with
      | error e => exact ih r
      | ok u =>
          simp only
          rw [List.map_cons, replay_cons, replay_reserve]
          exact ih _

/-- Outside sales and renewals the registrar publishes nothing of a holding. -/
theorem replay_settings {c : Registrar.Call} (h : c.isSale = false) (m : Store Bytes Holding) (r : Registrar.State) :
    replay applyEvent m ((Registrar.events r ⟨env, c⟩).map .registrar) = m := by
  cases c with
  | register | renew | extendDuringGrace => cases h
  | upgrade migrationData =>
      unfold Registrar.events
      cases r.admin <;> rfl
  | reserveLabel label => exact replay_reserve m r label
  | loadReservedManifest labels => exact replay_load m r labels
  | initializeContract | setRateLimitConfig | setGracePeriod | whitelistAddress | removeWhitelistAddress => rfl

/-- A call that is no sale reaches the registry with nothing to publish. -/
theorem nestedEvents_settings {c : Registrar.Call} (h : c.isSale = false) (s : State ω) : nestedEvents s c = [] := by
  cases c with
  | register => cases h
  | _ => rfl

theorem nestedEvents_renewal {c : Registrar.Call} {name : Bytes} {caller : Address} {years payment nowUnix : UInt64}
    (hcall : c = .renew name caller years payment nowUnix ∨ c = .extendDuringGrace name caller years payment nowUnix)
    (s : State ω) : nestedEvents s c = [] := by
  rcases hcall with rfl | rfl
  · rfl
  · rfl

/-- **Every committed registrar invocation is told.** -/
theorem registrar_told {c : Registrar.Call} (hok : step out d s ⟨env, .registrar c⟩ = .ok s') :
    replay applyEvent (holdings s) (events s ⟨env, .registrar c⟩) = holdings s' := by
  have heffect := step_effect hok
  unfold events
  simp only
  rw [replay_append]
  cases heffect with
  | quiet _ hentry hcall =>
      rw [nestedEvents_settings hcall, List.map_nil, replay_nil, replay_settings hcall, holdings, holdings, hentry]
  | @sale label name owner years maxPrice nowUnix hname _ hentry =>
      have hnested : nestedEvents s (.register label owner years maxPrice nowUnix) = Registry.burned s.registry name := by
        simp only [nestedEvents, hname]
      rw [hnested, replay_burned, holdings_of_set hentry, ← Store.set_remove]
      simp only [Registrar.events, List.map_cons, List.map_nil, replay_cons, replay_nil, applyEvent, hname]
      rfl
  | @renewal _ name caller years payment nowUnix record e hcall hold hold' _ _ _ hentry =>
      rw [nestedEvents_renewal hcall, List.map_nil, replay_nil, holdings_of_set hentry]
      have hrebound : ∀ x g, rebound (holdings s) name x g = (holdings s).set name ⟨e.owner, x, g⟩ := by
        intro x g
        rw [rebound, holdings_eq hold']
        rfl
      rcases Registrar.events_renewal (step_registrar_eq_ok.mp hok) hold hcall with hevents | hevents
      · rw [hevents]
        exact hrebound _ _
      · rw [hevents]
        exact hrebound _ _

/-! ## Runs -/

/-- A transaction that commits publishes what it did to the holdings iff it went through the registrar. -/
theorem tells_iff (s : State ω) (t : Tx Call) :
    Tells (step out d) events applyEvent holdings s t ↔
      ((∃ s', step out d s t = .ok s') → TellsHoldings s t.call) := by
  obtain ⟨env, c⟩ := t
  cases c with
  | registrar c =>
      apply iff_of_true
      · intro s' hok
        exact registrar_told hok
      · intro _
        trivial
  | registry c =>
      have htold : ∀ s', step out d s ⟨env, .registry c⟩ = .ok s' →
          (replay applyEvent (holdings s) (events s ⟨env, .registry c⟩) = holdings s' ↔ TellsHoldings s (.registry c)) := by
        intro s' hok
        exact registry_told_iff (Registry.step_change (step_registry_eq_ok.mp hok).2)
      constructor
      · rintro htells ⟨s', hok⟩
        exact (htold s' hok).mp (htells s' hok)
      · intro hcall s' hok
        exact (htold s' hok).mpr (hcall ⟨s', hok⟩)

/-- **Owners and bounds can be read off the two logs exactly when tenure goes through the registrar.** Whoever starts from
    the holdings of a state and applies the events of registrar and registry has, after every prefix of a run, each name
    with the owner and the bounds the registry holds, iff every committed transaction of the run is none of these: a
    registration made in the registry itself, which publishes nothing of the new entry, and a renewal made there that
    changes a bound. -/
theorem holdings_replay_iff (out : Registry.Outside ω) (d : Deployment) (s : State ω) (ts : List (Tx Call)) :
    (∀ us, us <+: ts → replay applyEvent (holdings s) (eventLog out d s us) = holdings (run (step out d) s us)) ↔
      Along (step out d) (fun s t => (∃ s', step out d s t = .ok s') → TellsHoldings s t.call) s ts := by
  show (∀ us, us <+: ts → replay applyEvent (holdings s) (published (step out d) events s us) = _) ↔ _
  rw [replay_prefixes_iff]
  exact along_congr (along_of_forall tells_iff ts s)

end XlmNs.RegistrarRegistry
