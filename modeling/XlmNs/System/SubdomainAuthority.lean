import XlmNs.System.RegistrySubdomain

/-!
# `System.SubdomainAuthority` — whose word counts under a parent

With a registry configured, the authority over a parent should lie with the name's current registry owner and
the controllers that owner added since acquiring the name (`AuthorityFollows`). A history variable keeps the two
facts about the past that this speaks of: who was added in the present tenure of a name, and whether its parent
record was registered in it.

The subdomain contract decides by its own `ParentDomain` record, which a registry transfer or a re-registration
of the name leaves as it was. `authority_follows`: the policy holds along every run in which nobody but the current
owner acts through a record of an earlier tenure (`RecordCurrent`).
-/

namespace XlmNs.RegistrySubdomain

open Soroban

variable {ω : Type} {out : Outside ω} {registry : Address} {env : Env} {s s' : State ω} {w : ω}
variable {p : Bytes} {caller : Address}

/-! ## Tenures of a name -/

/-- Who owns a name in the registry, expired or not. -/
def registryOwner (g : Registry.State) (p : Bytes) : Option Address := (g.entry p).map (·.owner)

theorem registryOwner_eq {g : Registry.State} {e : RegistryEntry} (he : g.entry p = some e) :
    registryOwner g p = some e.owner := by
  rw [registryOwner, he]
  rfl

/-- The name a call registers. -/
def registeredName : Registry.Call → Option Bytes
  | .register name _ _ _ _ _ _ => some name
  | _                          => none

/-- A committed registry call begins a new tenure of `p`: its owner changes, or it is registered again. -/
def NewTenure (g g' : Registry.State) (c : Registry.Call) (p : Bytes) : Prop :=
  registryOwner g' p ≠ registryOwner g p ∨ registeredName c = some p

instance (g g' : Registry.State) (c : Registry.Call) (p : Bytes) : Decidable (NewTenure g g' c p) :=
  inferInstanceAs (Decidable (_ ∨ _))

/-- What happened in the present tenure of each name. -/
structure Tenure where
  /-- the controllers its registry owner added -/
  appointed : Index Bytes Address
  /-- its parent record was registered, with this registry configured -/
  recorded  : Bytes → Bool

/-- Before any parent is registered. -/
def Tenure.none : Tenure := ⟨fun _ => Option.none, fun _ => false⟩

/-- How a committed transaction enters into the history. -/
def note (registry : Address) (s : State ω) (t : Tx Call) (s' : State ω) (h : Tenure) : Tenure :=
  match t.call with
  | .registry c =>
      { appointed := fun p =>
          if NewTenure s.registry s'.registry c p then Option.none else h.appointed p
        recorded := fun p =>
          if NewTenure s.registry s'.registry c p then false else h.recorded p }
  | .subdomain (.registerParent name _) =>
      { h with recorded := Function.update h.recorded name (decide (Wired registry s)) }
  | .subdomain (.addController name caller controller) =>
      if registryOwner s.registry name = some caller then
        { h with appointed := h.appointed.push name controller }
      else h
  | .subdomain _ => h

/-- The two contracts with the history next to them. -/
def watched (out : Outside ω) (registry : Address) :
    State ω × Tenure → Tx Call → Except Failure (State ω × Tenure) :=
  withHistory (step out registry) (note registry)

/-- The history is only watched: the contracts run as they would without it. -/
theorem run_watched (sh : State ω × Tenure) (ts : List (Tx Call)) :
    (run (watched out registry) sh ts).1 = run (step out registry) sh.1 ts :=
  run_withHistory sh ts

/-! ## The policy -/

/-- A call of the subdomain contract, this registry configured, that `caller` makes with authority over `p`. -/
def Exercises (registry : Address) (s : State ω) (t : Tx Call) (p : Bytes) (caller : Address) : Prop :=
  ∃ c, t.call = .subdomain c ∧ Wired registry s ∧ c.exercises s.subdomain = some (p, caller)

/-- `p` is Active, and the call is signed by its registry owner or by a controller that owner added since
    acquiring `p`. -/
def Rightful (env : Env) (s : State ω) (h : Tenure) (p : Bytes) (caller : Address) : Prop :=
  ∃ e, s.registry.entry p = some e ∧ e.isActiveAt env.timestamp ∧ env.Authorises caller ∧
    (e.owner = caller ∨
      ∃ rec, s.subdomain.parent p = some rec ∧ caller ∈ rec.controllers ∧ caller ∈ h.appointed.keys p)

/-- **Subdomain authority follows the registry**, at one transaction. -/
def AuthorityFollows (out : Outside ω) (registry : Address) (sh : State ω × Tenure) (t : Tx Call) :
    Prop :=
  ∀ p caller, Exercises registry sh.1 t p caller → (∃ s', step out registry sh.1 t = .ok s') →
    Rightful t.env sh.1 sh.2 p caller

/-- The parent record an accepted call goes by was registered in the present tenure of the name, or the caller
    is its registry owner anyway. -/
def RecordCurrent (out : Outside ω) (registry : Address) (sh : State ω × Tenure) (t : Tx Call) : Prop :=
  ∀ p caller, Exercises registry sh.1 t p caller → (∃ s', step out registry sh.1 t = .ok s') →
    sh.2.recorded p = true ∨ registryOwner sh.1.registry p = some caller

/-! ## A record of the present tenure is right -/

/-- A parent record registered in the present tenure names the registry owner, and only controllers that owner
    added in it. -/
structure Sound (sh : State ω × Tenure) : Prop where
  owner       : ∀ p rec, sh.1.subdomain.parent p = some rec → sh.2.recorded p = true →
    registryOwner sh.1.registry p = some rec.owner
  controllers : ∀ p rec, sh.1.subdomain.parent p = some rec → sh.2.recorded p = true →
    ∀ a ∈ rec.controllers, a ∈ sh.2.appointed.keys p

theorem sound_deployed (w : ω) : Sound (deployed w, Tenure.none) := by
  constructor
  · intro p rec hp
    cases hp
  · intro p rec hp
    cases hp

/-- A parent registered with this registry configured is recorded. -/
theorem note_registerParent {h : Tenure} {owner : Address} :
    (note registry s ⟨env, .subdomain (.registerParent p owner)⟩ s' h).recorded p
      = decide (Wired registry s) :=
  Function.update_self _ _ _

/-- Other calls than `register_parent` on `p` leave it recorded or not. -/
theorem note_recorded {h : Tenure} {c : Subdomain.Call} (hc : ∀ owner, c ≠ .registerParent p owner) :
    (note registry s ⟨env, .subdomain c⟩ s' h).recorded p = h.recorded p := by
  cases c with
  | registerParent name owner =>
      have hn : p ≠ name := by
        intro hn
        exact hc owner (by rw [hn])
      exact Function.update_of_ne hn _ _
  | addController name caller controller =>
      simp only [note]
      split <;> rfl
  | _ => rfl

/-- Within a tenure, the controllers added only become more. -/
theorem mem_note_appointed {h : Tenure} {c : Subdomain.Call} {a : Address}
    (ha : a ∈ h.appointed.keys p) :
    a ∈ (note registry s ⟨env, .subdomain c⟩ s' h).appointed.keys p := by
  cases c with
  | addController name caller controller =>
      simp only [note]
      split
      · exact Index.mem_keys_push.mpr (Or.inl ha)
      · exact ha
  | _ => exact ha

/-- A controller added by the registry owner is noted. -/
theorem mem_note_addController {h : Tenure} {a : Address}
    (howner : registryOwner s.registry p = some caller) :
    a ∈ (note registry s ⟨env, .subdomain (.addController p caller a)⟩ s' h).appointed.keys p := by
  simp only [note, if_pos howner]
  exact Index.mem_keys_push.mpr (Or.inr ⟨rfl, rfl⟩)

/-- Registry calls begin new tenures and leave the parent records alone. -/
theorem Sound.registry_step {h : Tenure} (hsound : Sound (s, h)) {c : Registry.Call}
    (hsame : s'.subdomain = s.subdomain) : Sound (s', note registry s ⟨env, .registry c⟩ s' h) := by
  have hkept : ∀ p, (note registry s ⟨env, .registry c⟩ s' h).recorded p = true →
      ¬ NewTenure s.registry s'.registry c p ∧ h.recorded p = true := by
    intro p hrec
    simp only [note] at hrec
    split at hrec
    · cases hrec
    · rename_i hold
      exact ⟨hold, hrec⟩
  constructor
  · intro p rec hp hrec
    obtain ⟨hold, hrec⟩ := hkept p hrec
    have howner : registryOwner s'.registry p = registryOwner s.registry p := by
      by_contra hne
      exact hold (Or.inl hne)
    exact howner.trans (hsound.owner p rec (hsame ▸ hp) hrec)
  · intro p rec hp hrec a ha
    obtain ⟨hold, hrec⟩ := hkept p hrec
    have happ : (note registry s ⟨env, .registry c⟩ s' h).appointed p = h.appointed p := if_neg hold
    unfold Index.keys
    rw [happ]
    exact hsound.controllers p rec (hsame ▸ hp) hrec a ha

/-- A parent record is written by the registry's owner, or edited by the owner it names. -/
theorem Sound.subdomain_step {h : Tenure} (hsound : Sound (s, h)) {c : Subdomain.Call}
    (hstep : step out registry s ⟨env, .subdomain c⟩ = .ok s') :
    Sound (s', note registry s ⟨env, .subdomain c⟩ s' h) := by
  obtain ⟨hregistry, _, hsub⟩ := step_subdomain_eq_ok.mp hstep
  constructor
  · intro p rec' hp hrec
    show registryOwner s'.registry p = _
    rw [hregistry]
    cases Subdomain.step_parent hsub hp with
    | registered hcall _ howns =>
        subst hcall
        rw [note_registerParent] at hrec
        have hwired : Wired registry s := of_decide_eq_true hrec
        obtain ⟨e, he, howner⟩ := entry_of_registryOwns hwired howns
        exact (registryOwner_eq he).trans (congrArg some howner)
    | kept hcall hold hedit =>
        rw [note_recorded hcall] at hrec
        rw [hedit.1]
        exact hsound.owner p _ hold hrec
  · intro p rec' hp hrec a ha
    cases Subdomain.step_parent hsub hp with
    | registered _ hnone _ =>
        rw [hnone] at ha
        cases ha
    | kept hcall hold hedit =>
        rw [note_recorded hcall] at hrec
        show a ∈ (note registry s ⟨env, .subdomain _⟩ s' h).appointed.keys p
        rcases hedit.2 a ha with hbefore | rfl
        · exact mem_note_appointed (hsound.controllers p _ hold hrec a hbefore)
        · exact mem_note_addController (hsound.owner p _ hold hrec)

/-- **Records of the present tenure stay right.** -/
theorem preserves_sound (out : Outside ω) (registry : Address) :
    Preserves (watched out registry) Sound := by
  rintro ⟨s, h⟩ ⟨env, c⟩ ⟨s', h'⟩ hsound hok
  obtain ⟨hstep, rfl⟩ := withHistory_eq_ok.mp hok
  cases c with
  | registry c => exact hsound.registry_step (step_registry_eq_ok.mp hstep).1
  | subdomain c => exact hsound.subdomain_step hstep

/-! ## One step -/

/-- **One step.** Acting through a record of the present tenure, or as the owner, is rightful. -/
theorem authorityFollows_of_recordCurrent {sh : State ω × Tenure} {t : Tx Call} (hsound : Sound sh)
    (hcur : RecordCurrent out registry sh t) : AuthorityFollows out registry sh t := by
  obtain ⟨s, h⟩ := sh
  obtain ⟨env, call⟩ := t
  rintro p caller ⟨c, rfl, hwired, hx⟩ ⟨s', hok⟩
  obtain ⟨rec, hadmitted⟩ := Subdomain.step_exercises (step_subdomain_eq_ok.mp hok).2.2 hx
  obtain ⟨e, he, hactive⟩ := entry_of_parentActive hwired hadmitted.active
  have hentry : registryOwner s.registry p = some e.owner := registryOwner_eq he
  refine ⟨e, he, hactive, hadmitted.signed, ?_⟩
  rcases hcur p caller ⟨c, rfl, hwired, hx⟩ ⟨s', hok⟩ with hrec | howner
  · have hrecord := hsound.owner p rec hadmitted.found hrec
    rcases hadmitted.admits with hcaller | hcontroller
    · -- the record's owner is the registry's
      rw [hentry, hcaller] at hrecord
      exact Or.inl (Option.some.inj hrecord)
    · -- the record's controllers are the registry owner's
      have happointed := hsound.controllers p rec hadmitted.found hrec caller hcontroller
      exact Or.inr ⟨rec, hadmitted.found, hcontroller, happointed⟩
  · exact Or.inl (Option.some.inj (hentry.symm.trans howner))

/-! ## Whole runs -/

/-- **Subdomain authority follows the registry along every run in which nobody but a name's current owner acts
    through a parent record of an earlier tenure.** -/
theorem authority_follows {ts : List (Tx Call)}
    (h : Along (watched out registry) (RecordCurrent out registry) (deployed w, Tenure.none) ts) :
    Along (watched out registry) (AuthorityFollows out registry) (deployed w, Tenure.none) ts := by
  have hall : Along (watched out registry)
      (fun sh t => RecordCurrent out registry sh t → AuthorityFollows out registry sh t)
      (deployed w, Tenure.none) ts :=
    along_of_invariant (preserves_sound out registry)
      (fun _ _ hsound => authorityFollows_of_recordCurrent hsound) ts (sound_deployed w)
  exact hall.mp h

/-! ## The previous owner's record -/

namespace SoldParent

open Cast

/-- Alice buys a name, registers it as a parent and creates a subdomain. -/
def founding : List (Tx Call) :=
  [⟨⟨100, [admin], none⟩, .subdomain (.initializeContract admin)⟩,
   ⟨⟨100, [admin], none⟩, .subdomain (.setRegistryContract Cast.registry)⟩,
   ⟨⟨1000, [alice], none⟩, .registry (.register aliceXlm alice none none 1000 31537000 34129000)⟩,
   ⟨⟨2000, [alice], none⟩, .subdomain (.registerParent aliceXlm alice)⟩,
   ⟨⟨2000, [alice], none⟩, .subdomain (.create (ascii "blog") aliceXlm alice alice 2000)⟩]

/-- Alice transfers her name to Bob. -/
def sell : Tx Call := ⟨⟨3000, [alice], none⟩, .registry (.transfer aliceXlm alice bob 3000)⟩

/-- She goes on creating subdomains. -/
def intrude : Tx Call :=
  ⟨⟨4000, [alice], none⟩, .subdomain (.create (ascii "pay") aliceXlm alice alice 4000)⟩

/-- **Subdomain authority does not follow the registry in the code**: Alice transfers her name to Bob in the
    registry and goes on creating subdomains below it. -/
theorem previous_owner_creates :
    LedgerOrder (founding ++ [sell, intrude]) ∧
      ¬ Along (watched nothingOutside Cast.registry)
        (AuthorityFollows nothingOutside Cast.registry) (deployed (), Tenure.none)
        (founding ++ [sell, intrude]) := by
  refine ⟨by decide, fun h => ?_⟩
  have hlast := along_split (founding ++ [sell]) [] h
  generalize hsh : run (watched nothingOutside Cast.registry) (deployed (), Tenure.none)
    (founding ++ [sell]) = sh at hlast
  have hwired : Wired Cast.registry sh.1 := by rw [← hsh]; decide +kernel
  have howner : registryOwner sh.1.registry aliceXlm = some bob := by rw [← hsh]; decide +kernel
  have hnobody : sh.2.appointed.keys aliceXlm = [] := by rw [← hsh]; decide +kernel
  have hafter : (exec (step nothingOutside Cast.registry) sh.1 intrude).subdomain.subdomain
      payAliceXlm = some ⟨aliceXlm, alice, 4000⟩ := by rw [← hsh]; decide +kernel
  have hbefore : sh.1.subdomain.subdomain payAliceXlm = none := by rw [← hsh]; decide +kernel
  rcases exec_cases (step nothingOutside Cast.registry) sh.1 intrude with hok | ⟨_, hsame⟩
  · obtain ⟨e, he, _, _, halice | ⟨_, _, _, happointed⟩⟩ :=
      hlast aliceXlm alice ⟨_, rfl, hwired, rfl⟩ ⟨_, hok⟩
    · have hbob : e.owner = bob := Option.some.inj ((registryOwner_eq he).symm.trans howner)
      exact absurd (halice.symm.trans hbob) (by decide)
    · rw [hnobody] at happointed
      cases happointed
  · rw [hsame, hbefore] at hafter
    cases hafter

/-- The authority of Alice's own time is hers. -/
theorem founding_follows :
    Along (watched nothingOutside Cast.registry)
      (AuthorityFollows nothingOutside Cast.registry) (deployed (), Tenure.none) founding := by
  refine authority_follows ⟨?_, ?_, ?_, ?_, ?_, trivial⟩
  · rintro _ _ ⟨_, hc, _, hx⟩ _
    obtain rfl := Call.subdomain.inj hc
    cases hx
  · rintro _ _ ⟨_, hc, _, hx⟩ _
    obtain rfl := Call.subdomain.inj hc
    cases hx
  · rintro _ _ ⟨_, hc, _⟩ _
    cases hc
  · rintro _ _ ⟨_, hc, _, hx⟩ _
    obtain rfl := Call.subdomain.inj hc
    cases hx
  · rintro _ _ ⟨_, hc, _, hx⟩ _
    obtain rfl := Call.subdomain.inj hc
    obtain ⟨rfl, rfl⟩ := Prod.mk.inj (Option.some.inj hx)
    exact Or.inl (by decide +kernel)

end SoldParent

end XlmNs.RegistrySubdomain
