import XlmNs.System.RegistryResolver

/-!
# `System.WriteAuthority` — who may change what a name resolves to

With a registry configured, whatever a write changes for a name (forward record, wildcard flag, reverse or
primary mapping) should carry the signature of the name's registry owner, and the name should be Active at the
ledger time (`WriteAuthorised`).

The nine writing entrypoints check this each in their own way. `MeetsPolicy` lists what the code leaves to the
caller's good will: `set_wildcard_resolution` takes no signature, `transfer_record_owner` does not ask the
registry, the ownership check runs at a time of the caller's choice (or at 0), and a mapping that is overwritten
or removed may belong to another name. `write_authority` proves the policy along every run that meets it.
-/

namespace XlmNs.RegistryResolver

open Soroban

variable {ω : Type} {out : Outside ω} {d : Deployment} {env : Env} {s s' : State ω}

/-! ## The policy -/

/-- The owner of `n` in the registry signed the invocation, and `n` is Active at the ledger time. -/
def OwnerSigned (env : Env) (g : Registry.State) (n : Bytes) : Prop :=
  ∃ e, g.entry n = some e ∧ e.isActiveAt env.timestamp ∧ env.Authorises e.owner

/-- The mapping from some address to `n` appears or disappears. -/
def RemapsTo (m m' : Store Bytes Bytes) (n : Bytes) : Prop := ∃ a, ¬ (m' a = some n ↔ m a = some n)

/-- Something about `n` changes in the resolver. -/
def Changes (r r' : Resolver.State) (n : Bytes) : Prop :=
  r'.forward n ≠ r.forward n ∨ r'.wildcard n ≠ r.wildcard n ∨ RemapsTo r.reverse r'.reverse n ∨
    RemapsTo r.primary r'.primary n

/-- **Write authority of one transaction**: an accepted write changes only names whose owners signed it. -/
def WriteAuthorised (out : Outside ω) (d : Deployment) (s : State ω) (t : Tx Call) : Prop :=
  ∀ c q s', t.call = .resolver c → c.request = some q → step out d s t = .ok s' →
    ∀ n, Changes s.resolver s'.resolver n → OwnerSigned t.env s.registry n

/-- What the code does not check for a write `c` on behalf of `q`. -/
structure MeetsPolicy (env : Env) (g : Registry.State) (r : Resolver.State) (c : Resolver.Call)
    (q : Resolver.Request) : Prop where
  /-- the caller named in `set_wildcard_resolution` signed -/
  signed : c.isUnsigned = true → env.Authorises q.caller
  /-- the registry owner signed `transfer_record_owner` -/
  owner  : c.skipsRegistry = true → ∃ e, g.entry q.name = some e ∧ env.Authorises e.owner
  /-- the time of the ownership check is not behind the clock, or the name is Active by the clock -/
  clock  : env.timestamp ≤ q.clock ∨ ∀ e, g.entry q.name = some e → e.isActiveAt env.timestamp
  /-- every mapping to another name that the write may undo is undone with that name's authority -/
  slots  : ∀ a n, (a ∈ (c.slots r).1 ∧ r.reverse a = some n ∨ a ∈ (c.slots r).2 ∧ r.primary a = some n) →
    n = q.name ∨ OwnerSigned env g n

/-- Every accepted write meets the policy. -/
def PolicyMet (out : Outside ω) (d : Deployment) (s : State ω) (t : Tx Call) : Prop :=
  ∀ c q, t.call = .resolver c → c.request = some q → (∃ s', step out d s t = .ok s') →
    MeetsPolicy t.env s.registry s.resolver c q

/-! ## One step -/

/-- A registry the resolver is wired to owns `name` at `clock` through an entry active then. -/
theorem entry_of_registryOwns {name : Bytes} {caller : Address} {clock : UInt64} (hwired : Wired d s)
    (h : Resolver.RegistryOwns (theRegistry out d) s.resolver (s.registry, s.world) name caller clock) :
    ∃ e, s.registry.entry name = some e ∧ e.isActiveAt clock ∧ e.owner = caller := by
  obtain ⟨e, he, howner⟩ := h d.registry hwired
  simp only [theRegistry, if_true] at he
  obtain ⟨_, hentry, hactive⟩ := Registry.resolve_eq_ok.mp (toOption_eq_some.mp he)
  exact ⟨e, hentry, hactive, howner⟩

/-- The written name's owner signed, whichever checks the code made itself. -/
theorem ownerSigned_of_write {c : Resolver.Call} {q : Resolver.Request} {r' : Resolver.State}
    (hwired : Wired d s)
    (h : Resolver.step (theRegistry out d) (s.registry, s.world) s.resolver ⟨env, c⟩ = .ok r')
    (hq : c.request = some q) (hp : MeetsPolicy env s.registry s.resolver c q) :
    OwnerSigned env s.registry q.name := by
  obtain ⟨_, hsigned, howns⟩ := Resolver.write_spec h hq
  have hauth : env.Authorises q.caller := by
    cases hu : c.isUnsigned with
    | true => exact hp.signed hu
    | false => exact hsigned hu
  have hclock : ∀ e, s.registry.entry q.name = some e → e.isActiveAt q.clock →
      e.isActiveAt env.timestamp := by
    intro e he hactive
    rcases hp.clock with hle | hact
    · exact UInt64.le_trans hle hactive
    · exact hact e he
  cases hskip : c.skipsRegistry with
  | false =>
      obtain ⟨e, he, hactive, howner⟩ := entry_of_registryOwns hwired (howns hskip)
      exact ⟨e, he, hclock e he hactive, howner ▸ hauth⟩
  | true =>
      obtain ⟨e, he, howner⟩ := hp.owner hskip
      refine ⟨e, he, hclock e he ?_, howner⟩
      -- the one call that skips the registry checks at time 0, when every entry is active
      cases c with
      | transferRecordOwner name caller newOwner =>
          obtain rfl := Option.some.inj hq
          exact UInt64.zero_le
      | _ => cases hskip

/-- A mapping to another name that a write for `name` disturbs was there before, at a touched address. -/
theorem remaps_other {m m' : Store Bytes Bytes} {touched : List Bytes} {name n : Bytes} (hn : n ≠ name)
    (hframe : ∀ a, a ∉ touched → m' a = m a)
    (hto : ∀ a k, m' a = some k → m a = some k ∨ k = name) (h : RemapsTo m m' n) :
    ∃ a ∈ touched, m a = some n := by
  obtain ⟨a, hchange⟩ := h
  have hbefore : m a = some n := by
    by_contra hno
    refine hchange (iff_of_false ?_ hno)
    intro hafter
    rcases hto a n hafter with h | h
    · exact hno h
    · exact hn h
  refine ⟨a, ?_, hbefore⟩
  by_contra hout
  exact hchange (by rw [hframe a hout])

/-- What a write for `q.name` changes for another name is a mapping in one of its slots. -/
theorem changes_other {c : Resolver.Call} {q : Resolver.Request} {r r' : Resolver.State} {n : Bytes}
    (htouch : Resolver.Touches q.name (c.slots r).1 (c.slots r).2 r r') (hn : n ≠ q.name)
    (hchange : Changes r r' n) :
    ∃ a, a ∈ (c.slots r).1 ∧ r.reverse a = some n ∨ a ∈ (c.slots r).2 ∧ r.primary a = some n := by
  rcases hchange with h | h | h | h
  · exact absurd (htouch.forward n hn) h
  · exact absurd (htouch.wildcard n hn) h
  · obtain ⟨a, ha, hbefore⟩ := remaps_other hn htouch.reverse htouch.reverse_to h
    exact ⟨a, Or.inl ⟨ha, hbefore⟩⟩
  · obtain ⟨a, ha, hbefore⟩ := remaps_other hn htouch.primary htouch.primary_to h
    exact ⟨a, Or.inr ⟨ha, hbefore⟩⟩

/-- **One step.** In a wired state, a transaction that meets the policy carries the authority it needs. -/
theorem writeAuthorised_of_policyMet {t : Tx Call} (hwired : Wired d s) (hp : PolicyMet out d s t) :
    WriteAuthorised out d s t := by
  obtain ⟨env, call⟩ := t
  rintro c q s' rfl hq hok n hchange
  have hmeets := hp c q rfl hq ⟨s', hok⟩
  obtain ⟨_, _, hr⟩ := step_resolver_eq_ok.mp hok
  by_cases hn : n = q.name
  · subst hn
    exact ownerSigned_of_write hwired hr hq hmeets
  · obtain ⟨a, ha⟩ := changes_other (Resolver.write_spec hr hq).1 hn hchange
    rcases hmeets.slots a n ha with h | h
    · exact absurd h hn
    · exact h

/-! ## Whole runs -/

/-- **Writes carry the owner's authority along every run whose writes meet the policy.** -/
theorem write_authority {admin : Address} {w : ω} {ts : List (Tx Call)}
    (h : Along (step out d) (PolicyMet out d) (deployed d admin w) ts) :
    Along (step out d) (WriteAuthorised out d) (deployed d admin w) ts := by
  have hall : Along (step out d) (fun s t => PolicyMet out d s t → WriteAuthorised out d s t)
      (deployed d admin w) ts :=
    along_of_invariant (preserves_wired out d) (fun _ _ => writeAuthorised_of_policyMet) ts
      (wired_deployed d admin w)
  exact hall.mp h

/-! ## A wildcard flag anyone can flip -/

namespace UnsignedWildcard

open Cast

/-- Mallory turns off the wildcard resolution of Alice's name. -/
def flip : Tx Call :=
  ⟨⟨3000, [mallory], none⟩, .resolver (.setWildcardResolution aliceXlm alice false 3000)⟩

/-- **Write authority fails on the code**: Mallory turns off Alice's wildcard resolution by naming Alice as the
    caller. Nobody asks for Alice's signature. -/
theorem wildcard_without_signature :
    ¬ Along (step nothingOutside contracts) (WriteAuthorised nothingOutside contracts)
      (deployed contracts alice ()) [aliceBuys, aliceLinks, flip] := by
  intro h
  have hflip := along_split [aliceBuys, aliceLinks] [] h
  generalize hs : run (step nothingOutside contracts) (deployed contracts alice ()) [aliceBuys, aliceLinks] = s at hflip
  have hbefore : s.resolver.wildcard aliceXlm = none := by rw [← hs]; decide +kernel
  have hafter : (exec (step nothingOutside contracts) s flip).resolver.wildcard aliceXlm = some false := by
    rw [← hs]; decide +kernel
  have hentry : s.registry.entry aliceXlm
      = some (Registry.freshEntry aliceXlm alice none none 1000 31537000 34129000) := by
    rw [← hs]; decide +kernel
  rcases exec_cases (step nothingOutside contracts) s flip with hok | ⟨_, hsame⟩
  · obtain ⟨e, he, _, hauth⟩ := hflip _ _ _ rfl rfl hok aliceXlm
      (Or.inr (Or.inl (by rw [hbefore, hafter]; decide)))
    obtain rfl := Option.some.inj (hentry.symm.trans he)
    exact absurd hauth (by decide)
  · rw [hsame, hbefore] at hafter
    cases hafter

/-- Alice's own purchase and first record carry her authority. -/
theorem owner_link_authorised :
    Along (step nothingOutside contracts) (WriteAuthorised nothingOutside contracts)
      (deployed contracts alice ()) [aliceBuys, aliceLinks] := by
  refine write_authority ⟨fun _ _ h => (by cases h), ?_, trivial⟩
  rintro c q hc hq _
  obtain rfl : Resolver.Call.setRecord aliceXlm alice alice.strkey 2000 = c := Call.resolver.inj hc
  obtain rfl := Option.some.inj hq
  have hfresh : (exec (step nothingOutside contracts) (deployed contracts alice ()) aliceBuys).resolver
      = (deployed contracts alice ()).resolver := rfl
  rw [hfresh]
  constructor
  case signed => intro hunsigned; cases hunsigned
  case owner => intro hskip; cases hskip
  case clock => exact Or.inl (by decide)
  case slots =>
    -- nothing is mapped yet
    rintro a n (⟨_, h⟩ | ⟨_, h⟩)
    · cases h
    · cases h

end UnsignedWildcard

end XlmNs.RegistryResolver
