import XlmNs.Subdomain.Records
import XlmNs.System.SubdomainAuthority

/-!
# `System.SubdomainLifetime` — do subdomains outlive their parent's registration?

With a registry configured, a subdomain created under a name should be gone once the name has lapsed and been
registered again (`NoneOutlives`). A history variable keeps where and when each subdomain was created: in the present
registration of its parent, before a lapse of it, or before a lapse that a new registration has ended.

Nobody sweeps the subdomains of a lapsed name but a query that happens to look below it, and such a query purges them
all. `none_outlive_iff`: no subdomain outlives its parent throughout a run iff every new registration of a lapsed name
finds its subdomains swept (`SweptBefore`).
-/

namespace XlmNs.RegistrySubdomain

open Soroban

variable {ω : Type} {out : Outside ω} {registry : Address} {env : Env} {s s' : State ω} {w : ω}
variable {t : Tx Call} {p fqdn : Bytes}

/-! ## The history of a subdomain -/

/-- When a subdomain was created. -/
inductive Stage
  /-- in the present registration of its parent -/
  | current
  /-- before its parent ran past its grace period -/
  | lapsed
  /-- before that, and its parent has been registered again -/
  | outlived
deriving DecidableEq, Repr

/-- The parent a subdomain was created under, and when. -/
structure Birth where
  parent : Bytes
  stage  : Stage
deriving DecidableEq, Repr

/-- The births of the subdomains there are. -/
abbrev History := Store Bytes Birth

/-- The name a call registers. -/
def Call.registers : Call → Option Bytes
  | .registry c  => registeredName c
  | .subdomain _ => none

/-- The subdomain a call creates, and its parent. -/
def Call.created : Call → Option (Bytes × Bytes)
  | .subdomain c => c.created
  | .registry _  => none

theorem created_of_registers (h : t.call.registers = some p) : t.call.created = none := by
  obtain ⟨env, c⟩ := t
  cases c with
  | registry c => rfl
  | subdomain c => cases h

/-- The registration of `p` is past its grace period, by the ledger clock or by the one the call registers it by. -/
def lapses (s : State ω) (t : Tx Call) (p : Bytes) : Bool :=
  match s.registry.entry p with
  | some e => e.isClaimableAt t.env.timestamp ∨ t.call.registers = some p
  | none   => false

/-- With this registry configured, `p` is registered. -/
def begins (registry : Address) (s : State ω) (t : Tx Call) (p : Bytes) : Bool :=
  Wired registry s ∧ t.call.registers = some p

/-- A registration lapses, and another may begin at once. -/
def Stage.next (lapse again : Bool) : Stage → Stage
  | .current  => if lapse then (if again then .outlived else .lapsed) else .current
  | .lapsed   => if again then .outlived else .lapsed
  | .outlived => .outlived

/-- What a committed transaction makes of the time of a birth. -/
def age (registry : Address) (s : State ω) (t : Tx Call) (b : Birth) : Birth :=
  { b with stage := b.stage.next (lapses s t b.parent) (begins registry s t b.parent) }

/-- How a committed transaction enters into the history. -/
def notice (registry : Address) (s : State ω) (t : Tx Call) (_ : State ω) (h : History) : History :=
  match t.call.created with
  | some (fqdn, name) => (h.view (age registry s t)).set fqdn ⟨name, .current⟩
  | none              => h.view (age registry s t)

/-- The two contracts with the history next to them. -/
def remembered (out : Outside ω) (registry : Address) :
    State ω × History → Tx Call → Except Failure (State ω × History) :=
  withHistory (step out registry) (notice registry)

theorem notice_created {h : History} (hc : t.call.created = some (fqdn, p)) :
    notice registry s t s' h fqdn = some ⟨p, .current⟩ := by
  unfold notice
  rw [hc]
  exact Store.set_self _ _ _

theorem notice_other {h : History} (hc : ∀ name, t.call.created ≠ some (fqdn, name)) :
    notice registry s t s' h fqdn = h.view (age registry s t) fqdn := by
  cases hcreated : t.call.created with
  | none => simp only [notice, hcreated]
  | some created =>
      obtain ⟨other, name⟩ := created
      simp only [notice, hcreated]
      apply Store.set_ne _ _
      rintro rfl
      exact hc name hcreated

/-! ## The property -/

/-- **No subdomain outlives its parent**: with this registry configured, no query at any time returns one created
    before a lapse that a new registration has ended. -/
def NoneOutlives (out : Outside ω) (registry : Address) (sh : State ω × History) : Prop :=
  Wired registry sh.1 → ∀ env fqdn b, sh.2 fqdn = some b → b.stage = .outlived →
    let gw := (sh.1.registry, sh.1.world)
    (Subdomain.record (theRegistry out registry) env sh.1.subdomain gw fqdn).2 = none ∧
    (Subdomain.existsRecord (theRegistry out registry) env sh.1.subdomain gw fqdn).2 = false ∧
    ∀ p, fqdn ∉ (Subdomain.subdomainsForParent (theRegistry out registry) env sh.1.subdomain gw p).2

/-- No subdomain outlives its parent after a transaction. -/
def NoneOutlivesAfter (out : Outside ω) (registry : Address) (sh : State ω × History) (t : Tx Call) : Prop :=
  NoneOutlives out registry (exec (remembered out registry) sh t)

/-- No subdomain that is stored under a name being registered was created before a lapse of it. -/
def Swept (registry : Address) (s : State ω) (h : History) (t : Tx Call) : Prop :=
  ∀ fqdn record b, s.subdomain.subdomain fqdn = some record → h fqdn = some b →
    begins registry s t record.parent = true → b.stage = .current ∧ lapses s t record.parent = false

/-- **Every new registration finds the subdomains of the lapsed one swept.** -/
def SweptBefore (out : Outside ω) (registry : Address) (sh : State ω × History) (t : Tx Call) : Prop :=
  (∃ s', step out registry sh.1 t = .ok s') → Swept registry sh.1 sh.2 t

/-! ## What is stored has not outlived its parent -/

/-- The lists of subdomains are exact, and every subdomain stored is remembered under its parent, and has not outlived
    it. -/
structure Tracked (sh : State ω × History) : Prop where
  listed : Subdomain.Listed sh.1.subdomain
  born   : ∀ fqdn record, sh.1.subdomain.subdomain fqdn = some record →
    ∃ b, sh.2 fqdn = some b ∧ b.parent = record.parent ∧ b.stage ≠ .outlived

theorem tracked_deployed (w : ω) : Tracked (deployed w, fun _ => none) := by
  refine ⟨Subdomain.listed_empty, ?_⟩
  intro fqdn record hrecord
  cases hrecord

theorem Tracked.noneOutlives {sh : State ω × History} (h : Tracked sh) : NoneOutlives out registry sh := by
  intro _ env fqdn b hb hstage
  have hgone : sh.1.subdomain.subdomain fqdn = none := by
    rw [Option.eq_none_iff_forall_ne_some]
    intro record hrecord
    obtain ⟨b', hb', _, hne⟩ := h.born fqdn record hrecord
    rw [hb] at hb'
    exact hne (Option.some.inj hb' ▸ hstage)
  have hrecord : (Subdomain.record (theRegistry out registry) env sh.1.subdomain
      (sh.1.registry, sh.1.world) fqdn).2 = none := by
    rw [Option.eq_none_iff_forall_ne_some]
    intro record hrecord
    rw [Subdomain.record_eq_some hrecord] at hgone
    cases hgone
  refine ⟨hrecord, congrArg Option.isSome hrecord, ?_⟩
  intro p hmem
  obtain ⟨record, hstored, _⟩ := (h.listed.mem_iff p fqdn).mp (Subdomain.mem_of_subdomainsForParent hmem)
  rw [hgone] at hstored
  cases hstored

/-! ## One step -/

theorem Stage.next_ne_outlived {lapse again : Bool} {stage : Stage} (hstage : stage ≠ .outlived)
    (hswept : again = true → stage = .current ∧ lapse = false) : stage.next lapse again ≠ .outlived := by
  cases again with
  | true =>
      obtain ⟨rfl, rfl⟩ := hswept rfl
      exact hstage
  | false =>
      cases stage with
      | current => cases lapse <;> decide
      | lapsed => exact hstage
      | outlived => exact absurd rfl hstage

theorem Stage.next_eq_outlived {lapse : Bool} {stage : Stage} (h : ¬ (stage = .current ∧ lapse = false)) :
    stage.next lapse true = .outlived := by
  cases stage with
  | current =>
      cases lapse with
      | true => rfl
      | false => exact absurd ⟨rfl, rfl⟩ h
  | lapsed | outlived => rfl

/-- The subdomains stored are remembered as they were, a transaction older. -/
theorem Tracked.aged {h : History} {record : Subdomain.SubdomainRecord} (htracked : Tracked (s, h))
    (hswept : Swept registry s h t) (hrecord : s.subdomain.subdomain fqdn = some record) :
    ∃ b, h.view (age registry s t) fqdn = some b ∧ b.parent = record.parent ∧ b.stage ≠ .outlived := by
  obtain ⟨b, hb, hparent, hstage⟩ := htracked.born fqdn record hrecord
  refine ⟨age registry s t b, Store.view_eq _ hb, hparent, ?_⟩
  apply Stage.next_ne_outlived hstage
  rw [hparent]
  exact hswept fqdn record b hrecord hb

theorem Tracked.step {h : History} (htracked : Tracked (s, h)) (hswept : Swept registry s h t)
    (hok : step out registry s t = .ok s') : Tracked (s', notice registry s t s' h) := by
  obtain ⟨env, c⟩ := t
  cases c with
  | registry c =>
      have hsame := (step_registry_eq_ok.mp hok).1
      constructor
      · show Subdomain.Listed s'.subdomain
        rw [hsame]
        exact htracked.listed
      · intro fqdn record hrecord
        rw [hsame] at hrecord
        exact htracked.aged hswept hrecord
  | subdomain c =>
      have heffect := Subdomain.step_effect (step_subdomain_eq_ok.mp hok).2.2
      refine ⟨heffect.listed htracked.listed, ?_⟩
      intro fqdn record hrecord
      rcases heffect.origin hrecord with ⟨⟨old, hold, hparent⟩, hother⟩ | hcreated
      · -- stored before: remembered as it was
        obtain ⟨b, hb, hb', hstage⟩ := htracked.aged hswept hold
        have hquiet : ∀ name, (⟨env, .subdomain c⟩ : Tx Call).call.created ≠ some (fqdn, name) := hother
        have hkept : notice registry s ⟨env, .subdomain c⟩ s' h fqdn = some b := (notice_other hquiet).trans hb
        exact ⟨b, hkept, hb'.trans hparent, hstage⟩
      · -- created now: born in the present registration
        have hnew : notice registry s ⟨env, .subdomain c⟩ s' h fqdn = some ⟨record.parent, .current⟩ :=
          notice_created hcreated
        exact ⟨_, hnew, rfl, (by decide : Stage.current ≠ .outlived)⟩

/-- An entry active at the ledger time makes its name an active parent. -/
theorem parentActive_of_entry {e : RegistryEntry} (hwired : Wired registry s)
    (he : s.registry.entry p = some e) (hactive : e.isActiveAt env.timestamp) :
    Subdomain.ParentActive (theRegistry out registry) env s.subdomain (s.registry, s.world) p := by
  intro address haddress
  obtain rfl := Option.some.inj (hwired.symm.trans haddress)
  simp only [theRegistry, if_true, Registry.nameState, he, if_pos hactive]

/-- The transaction that registers a name leaves it active for a while. -/
theorem entry_of_registers (hname : t.call.registers = some p) (hok : step out registry s t = .ok s') :
    s'.subdomain = s.subdomain ∧ ∃ e now, s'.registry.entry p = some e ∧ e.isActiveAt now := by
  obtain ⟨env, c⟩ := t
  cases c with
  | subdomain c => cases hname
  | registry c =>
      cases c with
      | register name owner targetAddress metadataUri nowUnix expiresAt gracePeriodEndsAt =>
          obtain rfl := Option.some.inj hname
          obtain ⟨hsame, hstep⟩ := step_registry_eq_ok.mp hok
          cases Registry.step_change hstep with
          | frame hquiet _ _ => cases hquiet
          | rewrite hquiet _ _ _ _ _ _ _ _ _ => cases hquiet
          | move _ _ hcall _ _ => rcases hcall with ⟨_, hcall⟩ | ⟨_, hcall⟩ <;> cases hcall
          | register _ _ hnow _ _ hentry _ =>
              refine ⟨hsame, Registry.freshEntry name owner targetAddress metadataUri nowUnix expiresAt
                gracePeriodEndsAt, nowUnix, ?_, ?_⟩
              · rw [hentry]
                exact Store.set_self _ _ _
              · exact hnow
      | _ => cases hname

/-- **A subdomain that is not swept outlives its parent.** -/
theorem swept_of_noneOutlives {h : History} (htracked : Tracked (s, h)) (hok : step out registry s t = .ok s')
    (hnone : NoneOutlives out registry (s', notice registry s t s' h)) : Swept registry s h t := by
  intro fqdn record b hrecord hb hbegins
  by_contra hunswept
  obtain ⟨hwired, hname⟩ : Wired registry s ∧ t.call.registers = some record.parent := of_decide_eq_true hbegins
  obtain ⟨hsame, e, now, he, hactive⟩ := entry_of_registers hname hok
  obtain ⟨b', hb', hparent, _⟩ := htracked.born fqdn record hrecord
  obtain rfl := Option.some.inj (hb.symm.trans hb')
  -- the history says so
  have hremembered : notice registry s t s' h fqdn = some (age registry s t b) := by
    have hquiet : ∀ name, t.call.created ≠ some (fqdn, name) := by
      intro name
      rw [created_of_registers hname]
      exact (Option.some_ne_none _).symm
    exact (notice_other hquiet).trans (Store.view_eq _ hb)
  have houtlived : (age registry s t b).stage = .outlived := by
    show b.stage.next (lapses s t b.parent) (begins registry s t b.parent) = .outlived
    rw [hparent, hbegins]
    exact Stage.next_eq_outlived hunswept
  -- and the record is returned
  have hwired' : Wired registry s' := by
    unfold Wired
    rw [hsame]
    exact hwired
  have hgone := (hnone hwired' ⟨now, [], none⟩ fqdn _ hremembered houtlived).1
  have hactive' : Subdomain.ParentActive (theRegistry out registry) ⟨now, [], none⟩ s'.subdomain
      (s'.registry, s'.world) record.parent := parentActive_of_entry hwired' he hactive
  have hstored : s'.subdomain.subdomain fqdn = some record := by
    rw [hsame]
    exact hrecord
  rw [Subdomain.record_of_active hstored hactive'] at hgone
  cases hgone

/-- **One step, exactly.** -/
theorem noneOutlivesAfter_iff {sh : State ω × History} (htracked : Tracked sh) :
    NoneOutlivesAfter out registry sh t ↔ SweptBefore out registry sh t := by
  obtain ⟨s, h⟩ := sh
  unfold NoneOutlivesAfter SweptBefore
  rw [← withHistory_accepted_iff]
  apply exec_iff htracked.noneOutlives
  rintro ⟨s', h'⟩ hok
  obtain ⟨hstep, rfl⟩ := withHistory_eq_ok.mp hok
  constructor
  · intro hnone
    exact swept_of_noneOutlives htracked hstep hnone
  · intro hswept
    exact (htracked.step hswept hstep).noneOutlives

theorem Tracked.exec {sh : State ω × History} (htracked : Tracked sh)
    (hswept : SweptBefore out registry sh t) : Tracked (exec (remembered out registry) sh t) := by
  obtain ⟨s, h⟩ := sh
  apply exec_of_ok htracked
  rintro ⟨s', h'⟩ hok
  obtain ⟨hstep, rfl⟩ := withHistory_eq_ok.mp hok
  exact htracked.step (hswept ⟨s', hstep⟩) hstep

/-! ## Whole runs -/

/-- **No subdomain outlives its parent's registration throughout a run iff every new registration of a lapsed name
    finds its subdomains swept.** Anyone may call either contract, in any order and at any ledger times, and the
    subdomain contract may be configured with this registry at any point. -/
theorem none_outlive_iff (out : Outside ω) (registry : Address) (w : ω) (ts : List (Tx Call)) :
    Along (remembered out registry) (NoneOutlivesAfter out registry) (deployed w, fun _ => none) ts ↔
      Along (remembered out registry) (SweptBefore out registry) (deployed w, fun _ => none) ts := by
  refine along_iff (I := Tracked) (P := NoneOutlivesAfter out registry) (Q := SweptBefore out registry) ?_ ?_
    (tracked_deployed w)
  · intro sh t htracked
    exact noneOutlivesAfter_iff htracked
  · intro sh t htracked hnone
    exact htracked.exec ((noneOutlivesAfter_iff htracked).mp hnone)

/-! ## A subdomain nobody looked at -/

namespace ForgottenSubdomain

open Cast SoldParent

/-- Alice's name is past its grace period. -/
def reclaim : Tx Call :=
  ⟨⟨40000000, [bob], none⟩, .registry (.register aliceXlm bob none none 40000000 71536000 74128000)⟩

/-- **A subdomain outlives its parent in the code**: Alice lets her name lapse, nobody looks at the subdomain below it
    until Bob registers the name, and then it is there again. -/
theorem forgotten_subdomain_returns :
    LedgerOrder (founding ++ [reclaim]) ∧
      ¬ Along (remembered nothingOutside Cast.registry)
        (NoneOutlivesAfter nothingOutside Cast.registry) (deployed (), fun _ => none)
        (founding ++ [reclaim]) := by
  refine ⟨by decide, fun h => ?_⟩
  have hlast := along_split founding [] h
  unfold NoneOutlivesAfter at hlast
  generalize hsh : exec (remembered nothingOutside Cast.registry)
    (run (remembered nothingOutside Cast.registry) (deployed (), fun _ => none) founding) reclaim = sh at hlast
  have hwired : Wired Cast.registry sh.1 := by rw [← hsh]; decide +kernel
  have hbirth : sh.2 (ascii "blog.alice.xlm") = some ⟨aliceXlm, .outlived⟩ := by rw [← hsh]; decide +kernel
  have hreturned : (Subdomain.record (theRegistry nothingOutside Cast.registry) ⟨40000000, [], none⟩
      sh.1.subdomain (sh.1.registry, sh.1.world) (ascii "blog.alice.xlm")).2 = some ⟨aliceXlm, alice, 2000⟩ := by
    rw [← hsh]; decide +kernel
  have hgone := (hlast hwired ⟨40000000, [], none⟩ _ _ hbirth rfl).1
  rw [hgone] at hreturned
  cases hreturned

end ForgottenSubdomain

end XlmNs.RegistrySubdomain
