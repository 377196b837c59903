import XlmNs.System.RegistrarRegistry

/-!
# `System.Agreement` — do the registrar and the registry tell the same story?

`Agree now s`: every registry entry has a registrar record with the same owner and bounds, and every record not
past its grace period at `now` has an entry. Sales and renewals write both stores and keep the agreement. The
registry's own entrypoints are open to everybody and write one store only; `KeepsRecord` says what such a call
must ask for to leave the two in step, and `agreement_iff` that a run agrees throughout iff each direct call
does.
-/

namespace XlmNs.RegistrarRegistry

open Soroban

variable {ω : Type} {out : Registry.Outside ω} {d : Deployment} {env : Env} {s s' : State ω}
variable {now : UInt64} {name : Bytes} {e : RegistryEntry}

/-- Same owner, same bounds. -/
def SameTenure (record : Registrar.RegistrationRecord) (e : RegistryEntry) : Prop :=
  record.owner = e.owner ∧ record.expiresAt = e.expiresAt ∧
    record.gracePeriodEndsAt = e.gracePeriodEndsAt

/-- **The two stores agree** at ledger time `now`. -/
def Agree (now : UInt64) (s : State ω) : Prop :=
  Store.Mirrors SameTenure (fun record => now ≤ record.gracePeriodEndsAt) s.registrar.registration
    s.registry.entry

theorem agree_deployed (d : Deployment) (admin : Address) (w : ω) (now : UInt64) :
    Agree now (deployed d admin w) := Store.Mirrors.empty _ _

/-- Records die as time goes on. -/
theorem Agree.later (h : Agree now s) {now' : UInt64} (hle : now ≤ now') : Agree now' s :=
  Store.Mirrors.mono h (fun _ hlive => UInt64.le_trans hle hlive)

/-- A direct registry call asks for what the registrar's record already says: it registers the tenure on
    record, moves a name to the owner it has, renews to the bounds it has, or burns a name whose grace period
    is over at the ledger time. -/
def KeepsRecord (now : UInt64) (s : State ω) : Registry.Call → Prop
  | .register name owner _ _ _ expiresAt gracePeriodEndsAt =>
      ∃ record, s.registrar.registration name = some record ∧ record.owner = owner ∧
        record.expiresAt = expiresAt ∧ record.gracePeriodEndsAt = gracePeriodEndsAt
  | .transfer name _ newOwner _ => ∀ e, s.registry.entry name = some e → newOwner = e.owner
  | .updateOwner name _ newOwner => ∀ e, s.registry.entry name = some e → newOwner = e.owner
  | .renew name _ expiresAt gracePeriodEndsAt _ =>
      ∀ e, s.registry.entry name = some e →
        expiresAt = e.expiresAt ∧ gracePeriodEndsAt = e.gracePeriodEndsAt
  | .burn name _ _ => ∀ e, s.registry.entry name = some e → e.gracePeriodEndsAt < now
  | _ => True

/-! ## One step -/

/-- Rewriting the entry of an agreeing name keeps the agreement iff the tenure stays the same. -/
theorem Agree.set_iff (h : Agree now s) (he : s.registry.entry name = some e) (e' : RegistryEntry)
    (hrecord : s'.registrar = s.registrar) (hentry : s'.registry.entry = s.registry.entry.set name e') :
    Agree now s' ↔ e'.owner = e.owner ∧ e'.expiresAt = e.expiresAt ∧
      e'.gracePeriodEndsAt = e.gracePeriodEndsAt := by
  unfold Agree
  rw [hrecord, hentry, h.set_right_iff]
  obtain ⟨record, hr, h1, h2, h3⟩ := h.back name e he
  constructor
  · rintro ⟨record', hr', g1, g2, g3⟩
    obtain rfl := Option.some.inj (hr.symm.trans hr')
    exact ⟨g1.symm.trans h1, g2.symm.trans h2, g3.symm.trans h3⟩
  · rintro ⟨g1, g2, g3⟩
    exact ⟨record, hr, h1.trans g1.symm, h2.trans g2.symm, h3.trans g3.symm⟩

theorem keepsRecord_of_quiet {c : Registry.Call} (h : c.isLifecycle = false) : KeepsRecord now s c := by
  cases c with
  | register | transfer | updateOwner | renew | burn => cases h
  | _ => trivial

/-- **A direct registry invocation keeps the agreement iff it keeps the record.** -/
theorem Agree.direct_iff {c : Registry.Call} (h : Agree now s) (hrecord : s'.registrar = s.registrar)
    (hc : Registry.Change env s.registry s'.registry c) : Agree now s' ↔ KeepsRecord now s c := by
  cases hc with
  | frame hquiet hentry _ =>
      refine iff_of_true ?_ (keepsRecord_of_quiet hquiet)
      unfold Agree
      rw [hrecord, hentry]
      exact h
  | rewrite hquiet he _ _ howner _ hexp hgrace hentry _ =>
      exact iff_of_true ((h.set_iff he _ hrecord hentry).mpr ⟨howner, hexp, hgrace⟩)
        (keepsRecord_of_quiet hquiet)
  | @renew name caller expiresAt gracePeriodEndsAt nowUnix e he _ _ _ _ _ _ hentry _ =>
      have hkeep : KeepsRecord now s (.renew name caller expiresAt gracePeriodEndsAt nowUnix) ↔
          expiresAt = e.expiresAt ∧ gracePeriodEndsAt = e.gracePeriodEndsAt :=
        Store.forall_value_iff he
      rw [h.set_iff he _ hrecord hentry, hkeep]
      constructor
      · intro hsame
        exact hsame.2
      · intro hbounds
        exact ⟨rfl, hbounds⟩
  | @move c name newOwner e he _ hcall hentry _ =>
      -- `transfer` and `update_owner` ask for the same
      have hkeep : KeepsRecord now s c ↔ newOwner = e.owner := by
        rcases hcall with ⟨_, rfl⟩ | ⟨_, rfl⟩
        · exact Store.forall_value_iff he
        · exact Store.forall_value_iff he
      rw [h.set_iff he _ hrecord hentry, hkeep]
      constructor
      · intro hsame
        exact hsame.1
      · intro howner
        exact ⟨howner, rfl, rfl⟩
  | @burn name caller nowUnix e he _ _ hentry _ =>
      obtain ⟨record, hr, _, _, hgrace⟩ := h.back name e he
      have hiff : Agree now s' ↔ ¬ now ≤ record.gracePeriodEndsAt := by
        unfold Agree
        rw [hrecord, hentry, Store.Mirrors.remove_right_iff h name]
        exact Store.forall_value_iff hr
      have hkeep : KeepsRecord now s (.burn name caller nowUnix) ↔ e.gracePeriodEndsAt < now :=
        Store.forall_value_iff he
      rw [hiff, hkeep, hgrace]
      exact UInt64.not_le
  | register _ _ _ _ _ hentry _ =>
      unfold Agree
      rw [hrecord, hentry]
      exact Store.Mirrors.set_right_iff h _ _

/-- Whatever the registrar does keeps the two in step, whichever records count as live. -/
theorem Effect.mirrors {Live : Registrar.RegistrationRecord → Prop} {c : Registrar.Call}
    (hc : Effect s s' env (.registrar c))
    (h : Store.Mirrors SameTenure Live s.registrar.registration s.registry.entry) :
    Store.Mirrors SameTenure Live s'.registrar.registration s'.registry.entry := by
  cases hc with
  | quiet hrecord hentry _ =>
      rw [hrecord, hentry]
      exact h
  | sale _ hrecord hentry =>
      rw [hrecord, hentry]
      exact Store.Mirrors.set_both h _ ⟨rfl, rfl, rfl⟩
  | renewal _ _ _ howner howner' hrecord hentry =>
      rw [hrecord, hentry]
      exact Store.Mirrors.set_both h _ ⟨howner.trans howner'.symm, rfl, rfl⟩

/-! ## Whole runs -/

/-- The two stores agree after the transaction, at its ledger time. -/
def AgreesAfter (out : Registry.Outside ω) (d : Deployment) (s : State ω) (t : Tx Call) : Prop :=
  Agree t.env.timestamp (exec (step out d) s t)

/-- A registry invocation from outside the registrar, if it is accepted, keeps the record. -/
def DirectKeepsRecord (out : Registry.Outside ω) (d : Deployment) (s : State ω) (t : Tx Call) : Prop :=
  ∀ c, t.call = .registry c → (∃ s', step out d s t = .ok s') → KeepsRecord t.env.timestamp s c

/-- **One step, exactly.** -/
theorem agreesAfter_iff {t : Tx Call} (h : Agree t.env.timestamp s) :
    AgreesAfter out d s t ↔ DirectKeepsRecord out d s t := by
  obtain ⟨env, c⟩ := t
  unfold AgreesAfter DirectKeepsRecord
  rcases exec_cases (step out d) s ⟨env, c⟩ with hok | ⟨⟨_, herr⟩, hsame⟩
  · have heffect := step_effect hok
    cases c with
    | registrar c =>
        refine iff_of_true (heffect.mirrors h) ?_
        intro _ hc
        cases hc
    | registry c =>
        cases heffect with
        | direct hrecord hchange =>
            rw [h.direct_iff hrecord hchange]
            constructor
            · intro hkeep c' hc _
              obtain rfl := Call.registry.inj hc
              exact hkeep
            · intro hkeep
              exact hkeep c rfl ⟨_, hok⟩
  · rw [hsame]
    refine iff_of_true h ?_
    rintro _ _ ⟨_, hok⟩
    cases herr.symm.trans hok

/-- From an agreeing state, a run in ledger order agrees throughout iff its direct calls keep the record. -/
theorem agreement_from {ts : List (Tx Call)} (horder : LedgerOrder ts)
    (h : ∀ t ∈ ts, Agree t.env.timestamp s) :
    Along (step out d) (AgreesAfter out d) s ts ↔ Along (step out d) (DirectKeepsRecord out d) s ts := by
  induction ts generalizing s with
  | nil => exact Iff.rfl
  | cons t ts ih =>
      obtain ⟨hfirst, horder'⟩ := List.pairwise_cons.mp horder
      have hstep : AgreesAfter out d s t ↔ DirectKeepsRecord out d s t :=
        agreesAfter_iff (h t List.mem_cons_self)
      rw [along_cons, along_cons, ← hstep]
      refine and_congr_right ?_
      -- later transactions run at later times, at which the records alive now may be dead
      intro hafter
      refine ih horder' ?_
      intro u hu
      exact Agree.later hafter (hfirst u hu)

/-- **The registrar and the registry agree throughout a run iff every direct registry call in it keeps the
    registrar's record.** The run starts from the deployed contracts, in ledger order; both contracts'
    entrypoints may be called by anyone in any interleaving. -/
theorem agreement_iff (out : Registry.Outside ω) (d : Deployment) (admin : Address) (w : ω)
    {ts : List (Tx Call)} (horder : LedgerOrder ts) :
    Along (step out d) (AgreesAfter out d) (deployed d admin w) ts ↔
      Along (step out d) (DirectKeepsRecord out d) (deployed d admin w) ts :=
  agreement_from horder (fun t _ => agree_deployed d admin w t.env.timestamp)

/-- Used through the registrar alone, the two contracts never disagree. -/
theorem registrar_runs_agree (out : Registry.Outside ω) (d : Deployment) (admin : Address) (w : ω)
    {ts : List (Tx Call)} (horder : LedgerOrder ts)
    (honly : ∀ t ∈ ts, ∀ c, t.call = .registry c → c.isLifecycle = false) :
    Along (step out d) (AgreesAfter out d) (deployed d admin w) ts := by
  refine (agreement_from horder (fun t _ => agree_deployed d admin w t.env.timestamp)).mpr ?_
  generalize deployed d admin w = s
  clear horder
  induction ts generalizing s with
  | nil => trivial
  | cons t ts ih =>
      constructor
      · intro c hc _
        exact keepsRecord_of_quiet (honly t List.mem_cons_self c hc)
      · refine ih ?_ _
        intro u hu
        exact honly u (List.mem_cons_of_mem _ hu)

/-! ## A transfer the registrar never hears of -/

namespace DirectTransfer

open Cast

/-- Alice buys her name at the registrar. -/
def buy : Tx Call := ⟨⟨1000, [alice], none⟩, .registrar (.register (ascii "alice") alice 1 250000000 1000)⟩

/-- She gives it to Bob in the registry. -/
def give : Tx Call := ⟨⟨2000, [alice], none⟩, .registry (.transfer aliceXlm alice bob 2000)⟩

/-- **The agreement fails on the code**: Alice buys a name and transfers it in the registry. The registry says
    Bob owns it, the registrar still says Alice. -/
theorem transfer_leaves_record_behind :
    LedgerOrder [buy, give] ∧
      ¬ Along (step Registry.nothingOutside contracts) (AgreesAfter Registry.nothingOutside contracts)
        (deployed contracts alice ()) [buy, give] := by
  refine ⟨by decide, fun h => ?_⟩
  have hagree : Agree 2000 (run (step Registry.nothingOutside contracts) (deployed contracts alice ()) [buy, give]) :=
    h.2.1
  have hentry : ∃ e, (run (step Registry.nothingOutside contracts) (deployed contracts alice ())
      [buy, give]).registry.entry aliceXlm = some e ∧ e.owner = bob :=
    ⟨{ Registry.freshEntry aliceXlm bob none none 1000 31537000 34129000 with transferCount := 1 },
      by decide +kernel, rfl⟩
  have hrecord : ∃ r, (run (step Registry.nothingOutside contracts) (deployed contracts alice ())
      [buy, give]).registrar.registration aliceXlm = some r ∧ r.owner = alice :=
    ⟨⟨aliceXlm, alice, 1000, 31537000, 34129000, 250000000, 1000⟩, by decide +kernel, rfl⟩
  obtain ⟨e, he, hbob⟩ := hentry
  obtain ⟨r, hr, halice⟩ := hrecord
  obtain ⟨r', hr', hsame, _⟩ := hagree.back aliceXlm e he
  obtain rfl := Option.some.inj (hr.symm.trans hr')
  exact absurd (halice.symm.trans (hsame.trans hbob)) (by decide)

/-- A purchase alone leaves the two in step. -/
theorem buy_agrees :
    Along (step Registry.nothingOutside contracts) (AgreesAfter Registry.nothingOutside contracts)
      (deployed contracts alice ()) [buy] :=
  (agreement_iff Registry.nothingOutside contracts alice () (by decide)).mpr
    ⟨fun _ h _ => (by cases h), trivial⟩

end DirectTransfer

end XlmNs.RegistrarRegistry
