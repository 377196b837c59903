import XlmNs.Resolver.Correctness.StellarWrites
import XlmNs.System.WriteAuthority

/-!
# `System.OwnerWrites` — are the writes of a name's owner reversible?

Wired to the registry, an owner's write of a Stellar address should make the address lead back to the name at once
(`ReversibleAfter`). The three writes check the owner in the registry, and so does the reverse query, but the query
compares it with the owner stored in the record. After a transfer in the registry that is still the previous owner;
`set_record` replaces it, `set_address` and `batch_set` leave it, and their mapping is deleted when it is first asked for.
`owner_writes_reversible_iff`: reversibility holds throughout a run iff each such write is a `set_record` or finds its
caller on record (`OwnerOnRecord`).
-/

namespace XlmNs.RegistryResolver

open Soroban
open Resolver (StellarWrite PrimaryElsewhere recordOwner)

variable {ω : Type} {out : Outside ω} {d : Deployment} {s s' : State ω} {t : Tx Call} {q : StellarWrite}

/-! ## The law -/

/-- **An owner's write**: an accepted call gives an Active name a Stellar address on behalf of its registry owner. -/
structure OwnerWrite (out : Outside ω) (d : Deployment) (s : State ω) (t : Tx Call) (s' : State ω) (c : Resolver.Call)
    (q : StellarWrite) : Prop where
  wired    : Wired d s
  call     : t.call = .resolver c
  writes   : c.stellarWrite = some q
  accepted : step out d s t = .ok s'
  owned    : ∃ e, s.registry.entry q.name = some e ∧ e.isActiveAt t.env.timestamp ∧ e.owner = q.caller

/-- **Reversibility of one transaction**: after an owner's write, a query at that ledger time leads from the address to
    the name, unless the address's primary mapping leads to another name that passes the check. -/
def ReversibleAfter (out : Outside ω) (d : Deployment) (s : State ω) (t : Tx Call) : Prop :=
  ∀ s' c q, OwnerWrite out d s t s' c q → ∀ query : Env, query.timestamp = t.env.timestamp →
    ¬ PrimaryElsewhere (theRegistry out d) query s'.resolver (s'.registry, s'.world) q.name q.address →
    (Resolver.reverse (theRegistry out d) query s'.resolver (s'.registry, s'.world) q.address).2 = some q.name

/-- An owner's write is a `set_record`, or finds the owner on record, or finds the address's primary mapping leading
    to another name and does not unlink the address on its way. -/
def OwnerOnRecord (out : Outside ω) (d : Deployment) (s : State ω) (t : Tx Call) : Prop :=
  ∀ s' c q, OwnerWrite out d s t s' c q →
    c.refreshesOwner = true ∨ recordOwner s.resolver q.name = some q.caller ∨
      q.address ∉ c.unlinked s.resolver ∧
        PrimaryElsewhere (theRegistry out d) t.env s.resolver (s.registry, s.world) q.name q.address

/-! ## One step -/

/-- The registry resolves an Active name that a write asked it about. -/
theorem OwnerWrite.resolves {c : Resolver.Call} (h : OwnerWrite out d s t s' c q) {query : Env}
    (htime : query.timestamp = t.env.timestamp) :
    ∃ e, (theRegistry out d).registryResolve d.registry q.name query.timestamp (s.registry, s.world) = some e ∧
      e.owner = q.caller := by
  obtain ⟨env, c'⟩ := t
  obtain rfl : c' = .resolver c := h.call
  obtain ⟨clock, hrequest, hasks⟩ := Resolver.request_of_stellarWrite h.writes
  have howns := (Resolver.write_spec (step_resolver_eq_ok.mp h.accepted).2.2 hrequest).2.2 hasks
  obtain ⟨_, hresolved, _⟩ := howns d.registry h.wired
  simp only [theRegistry, if_true] at hresolved
  have hvalid := (Registry.resolve_eq_ok.mp (toOption_eq_some.mp hresolved)).1
  obtain ⟨e, he, hactive, howner⟩ := h.owned
  refine ⟨e, ?_, howner⟩
  simp only [theRegistry, if_true, htime]
  exact toOption_eq_some.mpr (Registry.resolve_eq_ok.mpr ⟨hvalid, he, hactive⟩)

/-- **One owner's write, exactly.** -/
theorem OwnerWrite.finds_iff {c : Resolver.Call} (h : OwnerWrite out d s t s' c q) {query : Env}
    (htime : query.timestamp = t.env.timestamp) :
    (¬ PrimaryElsewhere (theRegistry out d) query s'.resolver (s'.registry, s'.world) q.name q.address →
      (Resolver.reverse (theRegistry out d) query s'.resolver (s'.registry, s'.world) q.address).2 = some q.name) ↔
    (c.refreshesOwner = true ∨ recordOwner s.resolver q.name = some q.caller ∨
      q.address ∉ c.unlinked s.resolver ∧
        PrimaryElsewhere (theRegistry out d) t.env s.resolver (s.registry, s.world) q.name q.address) := by
  obtain ⟨e, hresolves, howner⟩ := h.resolves htime
  have hwired := h.wired
  have hwrites := h.writes
  have haccepted := h.accepted
  obtain ⟨env, c'⟩ := t
  obtain rfl : c' = .resolver c := h.call
  obtain ⟨hregistry, hworld, hstep⟩ := step_resolver_eq_ok.mp haccepted
  rw [hregistry, hworld, ← or_iff_not_imp_right, Resolver.reverse_finds_iff hstep hwrites hwired hresolves howner,
    Resolver.primaryElsewhere_time htime]

theorem reversibleAfter_iff (out : Outside ω) (d : Deployment) (s : State ω) (t : Tx Call) :
    ReversibleAfter out d s t ↔ OwnerOnRecord out d s t := by
  constructor
  · intro hafter s' c q hwrite
    exact (hwrite.finds_iff rfl).mp (hafter s' c q hwrite t.env rfl)
  · intro hrecord s' c q hwrite query htime
    exact (hwrite.finds_iff htime).mpr (hrecord s' c q hwrite)

/-! ## Whole runs -/

/-- **Owner writes are reversible throughout a run iff each of them writes its owner anew or finds him on record**, or
    another name is the address's primary one. Anyone may call either contract, in any order and at any ledger times,
    from fresh deployment or from any other state. -/
theorem owner_writes_reversible_iff (out : Outside ω) (d : Deployment) (s : State ω) (ts : List (Tx Call)) :
    Along (step out d) (ReversibleAfter out d) s ts ↔ Along (step out d) (OwnerOnRecord out d) s ts :=
  along_congr (along_of_forall (reversibleAfter_iff out d) ts s)

/-! ## A record that remembers its seller -/

namespace StaleOwner

open Cast

/-- Alice registers a name, links it to her address and sells it to Bob. -/
def sale : List (Tx Call) := [aliceBuys, aliceLinks, aliceSells]

/-- Bob links it to his. -/
def bobsCall : Resolver.Call := .setAddress aliceXlm bob Resolver.defaultChain bob.strkey 4000

/-- He signs it at 4000. -/
def relinking : Tx Call := ⟨⟨4000, [bob], none⟩, .resolver bobsCall⟩

/-- **Bob's write is not reversible in the code**: the name resolves to his address, and his address to nothing. -/
theorem buyer_not_found :
    LedgerOrder (sale ++ [relinking]) ∧
      ¬ Along (step nothingOutside contracts) (ReversibleAfter nothingOutside contracts) (deployed contracts alice ())
        (sale ++ [relinking]) := by
  refine ⟨by decide, fun h => ?_⟩
  have hlast := along_split sale [] h
  generalize hs : run (step nothingOutside contracts) (deployed contracts alice ()) sale = s at hlast
  have howned : ((s.registry.entry aliceXlm).map fun e => (e.owner, decide (e.isActiveAt 4000))) = some (bob, true) := by
    rw [← hs]; decide +kernel
  have hlost : (step nothingOutside contracts s relinking).toOption.map
      (fun s' => ((Resolver.reverse (theRegistry nothingOutside contracts) relinking.env s'.resolver
        (s'.registry, s'.world) bob.strkey).2, s'.resolver.primary bob.strkey)) = some (none, none) := by
    rw [← hs]; decide +kernel
  obtain ⟨e, he, hpair⟩ := Option.map_eq_some_iff.mp howned
  obtain ⟨howner, hactive⟩ := Prod.mk.inj hpair
  obtain ⟨s', hok, hnone⟩ := Option.map_eq_some_iff.mp hlost
  obtain ⟨hreverse, hprimary⟩ := Prod.mk.inj hnone
  have hwired : s.resolver.registry = some contracts.registry := by rw [← hs]; decide +kernel
  have hfound := hlast s' bobsCall ⟨aliceXlm, bob, bob.strkey⟩
    ⟨hwired, rfl, rfl, toOption_eq_some.mp hok, e, he, of_decide_eq_true hactive, howner⟩ relinking.env rfl
    (fun ⟨m, _, hm, _⟩ => nomatch hprimary.symm.trans hm)
  cases hreverse.symm.trans hfound

end StaleOwner

end XlmNs.RegistryResolver
