import XlmNs.Resolver.Resolution
import XlmNs.Soroban.Lease
import XlmNs.System.WriteAuthority

/-!
# `System.ResolutionFreshness` — is what the resolver serves still true?

With a registry configured, a name that resolves without a wildcard should be Active in the registry at the ledger
time, and belong there to the owner of the record served (`ServesFresh`). `resolve` asks nobody: the registry is
consulted when a record is *written*, at a time of the writer's choice, and by the reverse lookup, but not when the
record is served. So whatever the registry does afterwards leaves the record behind.

The records are a table of holders next to the registry's table of leases, and the library of `Soroban.Lease` says
what each kind of write needs. `resolution_fresh_iff`: the resolver serves fresh records throughout a run iff no name
with a record runs out in it and no call moves a name in one of the two contracts only (`KeepsFresh`).
-/

namespace XlmNs.RegistryResolver

open Soroban Soroban.Lease

variable {ω : Type} {out : Outside ω} {d : Deployment} {env : Env} {s s' : State ω} {now : UInt64}

/-! ## The property -/

/-- **Resolution freshness**: a record served for the name itself has an Active registry entry of its owner. -/
def ServesFresh (out : Outside ω) (d : Deployment) (now : UInt64) (s : State ω) : Prop :=
  ∀ n record, Resolver.resolve (theRegistry out d) s.resolver (s.registry, s.world) n = some record →
    record.isWildcard = false →
    ∃ e, s.registry.entry n = some e ∧ e.isActiveAt now ∧ e.owner = record.owner

/-- Under valid names, the records served are fresh iff all stored ones are. -/
theorem servesFresh_iff (hvalid : Resolver.ValidNames s.resolver) :
    ServesFresh out d now s ↔ Fresh now (Resolver.recordOwner s.resolver) (Registry.tenure s.registry) := by
  constructor
  · intro hserves n owner howner
    obtain ⟨stored, hstored, rfl⟩ := Option.map_eq_some_iff.mp howner
    obtain ⟨hresolve, hexact⟩ := Resolver.resolve_exact_iff.mpr
      ⟨hvalid n _ howner, stored, hstored, rfl⟩
    obtain ⟨e, he, hactive, hsame⟩ := hserves n _ hresolve hexact
    refine ⟨e.expiresAt, ?_, hactive⟩
    rw [Registry.tenure_eq he, hsame]
  · intro hfresh n record hresolve hexact
    obtain ⟨_, stored, hstored, rfl⟩ := Resolver.resolve_exact_iff.mp ⟨hresolve, hexact⟩
    obtain ⟨expiry, htenure, hle⟩ := hfresh n stored.owner (Resolver.recordOwner_eq hstored)
    obtain ⟨e, he, hpair⟩ := Option.map_eq_some_iff.mp htenure
    obtain ⟨howner, rfl⟩ := Prod.mk.inj hpair
    exact ⟨e, he, hle, howner⟩

/-- The records served after a transaction are fresh at its ledger time. -/
def FreshAfter (out : Outside ω) (d : Deployment) (s : State ω) (t : Tx Call) : Prop :=
  ServesFresh out d t.env.timestamp (exec (step out d) s t)

/-! ## What keeps the records fresh -/

/-- What a registry call on a name with a record needs: the record already names the owner the call leaves, the
    expiry it leaves is ahead, and a name is burned only without a record. -/
def RegistryKeeps (now : UInt64) (r : Resolver.State) : Registry.Call → Prop
  | .register name owner _ _ _ expiresAt _ =>
      ∀ a, Resolver.recordOwner r name = some a → a = owner ∧ now ≤ expiresAt
  | .transfer name _ newOwner _   => ∀ a, Resolver.recordOwner r name = some a → a = newOwner
  | .updateOwner name _ newOwner  => ∀ a, Resolver.recordOwner r name = some a → a = newOwner
  | .renew name _ expiresAt _ _   => ∀ a, Resolver.recordOwner r name = some a → now ≤ expiresAt
  | .burn name _ _                => Resolver.recordOwner r name = none
  | _                             => True

/-- What a resolver call needs: a record is written for a name Active by the clock, and rewritten for the owner in
    the registry only. -/
def ResolverKeeps (now : UInt64) (g : Registry.State) : Resolver.Call → Prop
  | .setRecord name _ _ _                => ∀ held, Registry.tenure g name = some held → now ≤ held.2
  | .updateOwner name _ newOwner         => ∀ held, Registry.tenure g name = some held → held.1 = newOwner
  | .transferRecordOwner name _ newOwner => ∀ held, Registry.tenure g name = some held → held.1 = newOwner
  | _                                    => True

/-- The name whose present lease does not matter after the call. -/
def Call.settles : Call → Option Bytes
  | .registry (.register name _ _ _ _ _ _) => some name
  | .registry (.renew name _ _ _ _)        => some name
  | .resolver (.removeRecord name _)       => some name
  | _                                      => none

/-- What an accepted call needs. -/
def Keeps (now : UInt64) (s : State ω) : Call → Prop
  | .registry c => RegistryKeeps now s.resolver c
  | .resolver c => ResolverKeeps now s.registry c

/-- The name has no record, or is Active in the registry. -/
def Unexpired (now : UInt64) (s : State ω) (n : Bytes) : Prop :=
  UnexpiredAt now (Resolver.recordOwner s.resolver) (Registry.tenure s.registry) n

/-- **No name with a record has run out, and the call moves none in one contract only.** -/
structure KeepsFresh (out : Outside ω) (d : Deployment) (s : State ω) (t : Tx Call) : Prop where
  unexpired : ∀ n, Unexpired t.env.timestamp s n ∨
    (∃ s', step out d s t = .ok s') ∧ t.call.settles = some n
  call : (∃ s', step out d s t = .ok s') → Keeps t.env.timestamp s t.call

/-! ## One step -/

theorem settled_iff {P : Bytes → Prop} {name : Bytes} :
    (∀ n, P n ∨ some name = some n) ↔ ∀ n, n ≠ name → P n := by
  refine forall_congr' (fun n => ?_)
  rw [Option.some.injEq, or_iff_not_imp_right]
  exact imp_congr_left ⟨fun h => Ne.symm h, fun h => Ne.symm h⟩

theorem unsettled_iff {P : Bytes → Prop} : (∀ n, P n ∨ (none : Option Bytes) = some n) ↔ ∀ n, P n := by
  simp

/-- **A registry call, exactly.** -/
theorem fresh_tenures_iff {r : Resolver.State} {leases : Bytes → Option (Address × UInt64)}
    (hm : Matched (Resolver.recordOwner r) leases) (c : Registry.Call) :
    Fresh now (Resolver.recordOwner r) (c.tenures leases) ↔
      (∀ n, UnexpiredAt now (Resolver.recordOwner r) leases n ∨ (Call.registry c).settles = some n) ∧
        RegistryKeeps now r c := by
  cases c with
  | register name owner targetAddress metadataUri nowUnix expiresAt gracePeriodEndsAt =>
      exact (fresh_begin_iff hm owner expiresAt).trans (and_congr_left' settled_iff.symm)
  | renew name caller expiresAt gracePeriodEndsAt nowUnix =>
      exact (fresh_extend_iff hm expiresAt).trans (and_congr_left' settled_iff.symm)
  | transfer name caller newOwner nowUnix =>
      exact (fresh_assign_iff hm newOwner).trans (and_congr_left' unsettled_iff.symm)
  | updateOwner name caller newOwner =>
      exact (fresh_assign_iff hm newOwner).trans (and_congr_left' unsettled_iff.symm)
  | burn name caller nowUnix => exact (fresh_end_iff hm).trans (and_congr_left' unsettled_iff.symm)
  | _ => exact (fresh_iff hm).trans (unsettled_iff.symm.trans (and_iff_left trivial).symm)

/-- Wired, a resolver call that checked the ownership found a tenure of the caller. -/
theorem tenure_of_setRecord {r' : Resolver.State} {name address : Bytes} {owner : Address} {nowUnix : UInt64}
    (hwired : Wired d s)
    (h : Resolver.step (theRegistry out d) (s.registry, s.world) s.resolver
      ⟨env, .setRecord name owner address nowUnix⟩ = .ok r') :
    ∃ expiry, Registry.tenure s.registry name = some (owner, expiry) := by
  have howns := (Resolver.write_spec h rfl).2.2 rfl
  obtain ⟨e, he, _, hsame⟩ := entry_of_registryOwns hwired howns
  refine ⟨e.expiresAt, ?_⟩
  rw [Registry.tenure_eq he, hsame]

/-- **A resolver call, exactly.** -/
theorem fresh_recordOwners_iff {c : Resolver.Call} {r' : Resolver.State} (hwired : Wired d s)
    (hm : Matched (Resolver.recordOwner s.resolver) (Registry.tenure s.registry))
    (h : Resolver.step (theRegistry out d) (s.registry, s.world) s.resolver ⟨env, c⟩ = .ok r') :
    Fresh now (c.recordOwners (Resolver.recordOwner s.resolver)) (Registry.tenure s.registry) ↔
      (∀ n, Unexpired now s n ∨ (Call.resolver c).settles = some n) ∧ ResolverKeeps now s.registry c := by
  cases c with
  | setRecord name owner address nowUnix =>
      obtain ⟨expiry, hheld⟩ := tenure_of_setRecord hwired h
      have hkeeps : ResolverKeeps now s.registry (.setRecord name owner address nowUnix) ↔ now ≤ expiry :=
        Store.forall_value_iff (m := Registry.tenure s.registry) hheld
      rw [hkeeps]
      exact (fresh_enter_iff hm hheld).trans (and_congr_left' unsettled_iff.symm)
  | updateOwner name caller newOwner =>
      obtain ⟨_, hfound⟩ := Resolver.reassign_found (Or.inl rfl) h
      exact (fresh_rename_iff hm hfound newOwner).trans (and_congr_left' unsettled_iff.symm)
  | transferRecordOwner name caller newOwner =>
      obtain ⟨_, hfound⟩ := Resolver.reassign_found (Or.inr rfl) h
      exact (fresh_rename_iff hm hfound newOwner).trans (and_congr_left' unsettled_iff.symm)
  | removeRecord name caller =>
      exact (fresh_forget_iff hm).trans (settled_iff.symm.trans (and_iff_left trivial).symm)
  | _ => exact (fresh_iff hm).trans (unsettled_iff.symm.trans (and_iff_left trivial).symm)

/-- A registry transaction leaves the records alone. -/
theorem recordOwner_registry {c : Registry.Call} (h : step out d s ⟨env, .registry c⟩ = .ok s') :
    Resolver.recordOwner s'.resolver = Resolver.recordOwner s.resolver := by
  refine resolver_of_registry (I := fun r => Resolver.recordOwner r = Resolver.recordOwner s.resolver) ?_ h rfl
  intro env r name previousOwner r' hclear hr
  have hstep : Resolver.step (theRegistry out d) (s.registry, s.world) r
      ⟨env, .clearReverseRecord name previousOwner⟩ = .ok r' := hclear
  exact (Resolver.step_recordOwner hstep).trans hr

/-- **One committed transaction, exactly.** -/
theorem fresh_step_iff {c : Call} (hwired : Wired d s)
    (hm : Matched (Resolver.recordOwner s.resolver) (Registry.tenure s.registry))
    (h : step out d s ⟨env, c⟩ = .ok s') :
    Fresh now (Resolver.recordOwner s'.resolver) (Registry.tenure s'.registry) ↔
      (∀ n, Unexpired now s n ∨ c.settles = some n) ∧ Keeps now s c := by
  cases c with
  | registry c =>
      have htenure := (Registry.step_change (step_registry_eq_ok.mp h)).tenure
      rw [recordOwner_registry h, htenure]
      exact fresh_tenures_iff hm c
  | resolver c =>
      obtain ⟨hregistry, _, hr⟩ := step_resolver_eq_ok.mp h
      rw [hregistry, Resolver.step_recordOwner hr]
      exact fresh_recordOwners_iff hwired hm hr

/-- What holds along a run that serves fresh records. -/
structure InStep (d : Deployment) (s : State ω) : Prop where
  wired   : Wired d s
  valid   : Resolver.ValidNames s.resolver
  matched : Matched (Resolver.recordOwner s.resolver) (Registry.tenure s.registry)

/-- Names stay valid. -/
theorem preserves_validNames (out : Outside ω) (d : Deployment) :
    Preserves (step out d) (fun s => Resolver.ValidNames s.resolver) := by
  rintro s ⟨env, c⟩ s' hvalid h
  cases c with
  | registry c =>
      intro n owner hn
      rw [recordOwner_registry h] at hn
      exact hvalid n owner hn
  | resolver c => exact hvalid.step (step_resolver_eq_ok.mp h).2.2

/-- **One step, exactly.** -/
theorem freshAfter_iff {t : Tx Call} (h : InStep d s) : FreshAfter out d s t ↔ KeepsFresh out d s t := by
  obtain ⟨env, c⟩ := t
  have hvalid := (preserves_validNames out d).exec h.valid ⟨env, c⟩
  unfold FreshAfter
  rw [servesFresh_iff hvalid]
  rcases exec_cases (step out d) s ⟨env, c⟩ with hok | ⟨⟨_, herr⟩, hsame⟩
  · rw [fresh_step_iff h.wired h.matched hok]
    constructor
    · rintro ⟨hunexpired, hkeeps⟩
      refine ⟨?_, fun _ => hkeeps⟩
      intro n
      exact (hunexpired n).imp_right (fun hsettled => ⟨⟨_, hok⟩, hsettled⟩)
    · rintro ⟨hunexpired, hkeeps⟩
      refine ⟨?_, hkeeps ⟨_, hok⟩⟩
      intro n
      exact (hunexpired n).imp_right And.right
  · -- a rejected transaction: only the clock went on
    have hrejected : ¬ ∃ s', step out d s ⟨env, c⟩ = .ok s' := by
      rintro ⟨_, hok⟩
      cases herr.symm.trans hok
    rw [hsame, fresh_iff h.matched]
    constructor
    · intro hunexpired
      exact ⟨fun n => Or.inl (hunexpired n), fun hok => absurd hok hrejected⟩
    · rintro ⟨hunexpired, _⟩ n
      exact (hunexpired n).resolve_right (fun hsettled => hrejected hsettled.1)

theorem InStep.exec {t : Tx Call} (h : InStep d s) (hfresh : FreshAfter out d s t) :
    InStep d (exec (step out d) s t) := by
  have hvalid := (preserves_validNames out d).exec h.valid t
  refine ⟨(preserves_wired out d).exec h.wired t, hvalid, ?_⟩
  exact ((servesFresh_iff hvalid).mp hfresh).matched

/-! ## Whole runs -/

theorem inStep_deployed (d : Deployment) (admin : Address) (w : ω) : InStep d (deployed d admin w) := by
  refine ⟨wired_deployed d admin w, ?_, ?_⟩
  · intro n owner hn
    cases hn
  · intro n owner hn
    cases hn

/-- **The resolver serves fresh records throughout a run iff no name with a record runs out in it and no accepted
    call moves a name in one of the two contracts only.** Anyone may call either contract, in any order and at any
    ledger times. -/
theorem resolution_fresh_iff (out : Outside ω) (d : Deployment) (admin : Address) (w : ω)
    (ts : List (Tx Call)) :
    Along (step out d) (FreshAfter out d) (deployed d admin w) ts ↔
      Along (step out d) (KeepsFresh out d) (deployed d admin w) ts :=
  along_iff (I := InStep d) (P := FreshAfter out d) (Q := KeepsFresh out d) (fun _ _ => freshAfter_iff)
    (fun _ _ => InStep.exec) (inStep_deployed d admin w)

/-! ## A record that survives a sale -/

namespace SoldName

open Cast

/-- **Freshness fails on the code**: Alice sells her name to Bob in the registry, and the resolver goes on serving
    Alice's record. -/
theorem sold_name_resolves_to_seller :
    LedgerOrder [aliceBuys, aliceLinks, aliceSells] ∧
      ¬ Along (step nothingOutside contracts) (FreshAfter nothingOutside contracts)
        (deployed contracts alice ()) [aliceBuys, aliceLinks, aliceSells] := by
  refine ⟨by decide, fun h => ?_⟩
  obtain ⟨_, _, hsell, _⟩ := h
  unfold FreshAfter at hsell
  generalize hs : exec (step nothingOutside contracts) (exec (step nothingOutside contracts)
    (exec (step nothingOutside contracts) (deployed contracts alice ()) aliceBuys) aliceLinks) aliceSells = s at hsell
  have hserved : ((Resolver.resolve (theRegistry nothingOutside contracts) s.resolver (s.registry, s.world)
      aliceXlm).map (fun record => (record.owner, record.isWildcard))) = some (alice, false) := by
    rw [← hs]; decide +kernel
  have hentry : Registry.tenure s.registry aliceXlm = some (bob, 31537000) := by
    rw [← hs]; decide +kernel
  obtain ⟨record, hrecord, hpair⟩ := Option.map_eq_some_iff.mp hserved
  obtain ⟨halice, hexact⟩ := Prod.mk.inj hpair
  obtain ⟨e, he, _, hsame⟩ := hsell aliceXlm record hrecord hexact
  rw [Registry.tenure_eq he, hsame, halice] at hentry
  exact absurd (Prod.mk.inj (Option.some.inj hentry)).1 (by decide)

end SoldName

end XlmNs.RegistryResolver
