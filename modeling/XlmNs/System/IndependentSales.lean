import XlmNs.Registrar.Correctness.Independence
import XlmNs.Registry.Correctness.Independence
import XlmNs.System.RegistrarRegistry

/-!
# `System.IndependentSales` — does the order of two `register` calls matter?

Two purchases of different labels by different owners touch the two contracts in places the other one does not look
at, and what they share (treasury, counts, the lists of owner names) they change by updates that commute: `carry` says
that a purchase after the other one is the purchase before it with the other one's writes carried over, and the rule
for commuting updates gives the rest. Two purchases of one label are decided by their order: the record of the first
that passes its checks refuses the others until its grace period is over (`rejected_later`).
-/

namespace XlmNs.RegistrarRegistry

open Soroban

variable {ω : Type} {out : Registry.Outside ω} {d : Deployment} {s s' : State ω}

/-- A `register` call and the environment it is invoked in. -/
structure Purchase where
  env      : Env
  label    : Bytes
  owner    : Address
  years    : UInt64
  maxPrice : UInt64
  nowUnix  : UInt64

namespace Purchase

/-- The transaction of a purchase. -/
def tx (p : Purchase) : Tx Call := ⟨p.env, .registrar (.register p.label p.owner p.years p.maxPrice p.nowUnix)⟩

/-- The name a purchase is about. -/
def name (p : Purchase) : Bytes := p.label ++ dot :: xlm

/-- The offer it is made at. -/
def quote (s : State ω) (p : Purchase) : Registrar.RegistrationQuote :=
  Registrar.buildQuote s.registrar p.label p.years p.nowUnix

/-- The last second of its term and grace, if it is made at `s`. -/
def heldUntil (s : State ω) (p : Purchase) : UInt64 := (p.quote s).gracePeriodEndsAt

end Purchase

variable {p q : Purchase}

/-- **A purchase passes its own checks**: the registrar's, and the registry's in the call the registrar makes. -/
structure Passes (d : Deployment) (s : State ω) (p : Purchase) : Prop where
  registrar : Registrar.registerChecks p.env s.registrar p.label p.owner p.years p.maxPrice p.nowUnix = .ok p.name
  wired     : s.registrar.registry = some d.registry
  registry  : Registry.Registrable (p.env.callFrom d.registrar) s.registry p.name p.owner p.nowUnix
                (p.quote s).expiryUnix (p.quote s).gracePeriodEndsAt

/-- What a purchase writes, in both contracts. -/
def sale (p : Purchase) (quote : Registrar.RegistrationQuote) (s : State ω) : State ω where
  registrar := Registrar.afterRegister s.registrar p.name p.owner quote p.nowUnix
  registry  := Registry.registered s.registry p.name
    (Registry.freshEntry p.name p.owner none none p.nowUnix quote.expiryUnix quote.gracePeriodEndsAt)
  world     := s.world

/-- The registry's half of it. -/
def registrySale (p : Purchase) (quote : Registrar.RegistrationQuote) :
    Registry.State × ω → Registry.State × ω :=
  Prod.map (fun g => Registry.registered g p.name
    (Registry.freshEntry p.name p.owner none none p.nowUnix quote.expiryUnix quote.gracePeriodEndsAt)) id

theorem name_of_checks {r : Registrar.State} {name : Bytes}
    (h : Registrar.registerChecks p.env r p.label p.owner p.years p.maxPrice p.nowUnix = .ok name) : name = p.name :=
  (buildXlmName_eq_ok.mp (Registrar.registerChecks_eq_ok h).1).2

theorem name_ne (h : p.label ≠ q.label) : p.name ≠ q.name := fun hname => h (List.append_cancel_right hname)

/-- The registry call of a sale, made to the registry without an NFT contract. -/
theorem saleCall_eq_ok {env : Env} {r : Registrar.State} {g g' : Registry.State} {w w' : ω} {name : Bytes}
    {owner : Address} {quote : Registrar.RegistrationQuote} {nowUnix : UInt64} (hnft : g.nftContract = none) :
    Registrar.callRegistry (theRegistry out d) d.registrar env r (Registrar.saleCall name owner quote nowUnix) (g, w)
        = .ok (g', w') ↔
      r.registry = some d.registry ∧
      Registry.Registrable (env.callFrom d.registrar) g name owner nowUnix quote.expiryUnix quote.gracePeriodEndsAt ∧
      g' = Registry.registered g name
        (Registry.freshEntry name owner none none nowUnix quote.expiryUnix quote.gracePeriodEndsAt) ∧ w' = w := by
  rw [Registrar.callRegistry_eq_ok]
  constructor
  · rintro ⟨registry, hregistry, hcall⟩
    simp only [theRegistry] at hcall
    split at hcall
    · rename_i haddr
      exact ⟨haddr ▸ hregistry, (Registry.register_without_nft hnft).mp (toOption_eq_some.mp hcall)⟩
    · cases hcall
  · rintro ⟨hregistry, hwrites⟩
    refine ⟨d.registry, hregistry, ?_⟩
    simp only [theRegistry, if_pos]
    exact toOption_eq_some.mpr ((Registry.register_without_nft hnft).mpr hwrites)

/-- **A purchase without an NFT contract** commits iff it passes its own checks, and writes exactly its sale. -/
theorem step_purchase (hnft : s.registry.nftContract = none) :
    step out d s p.tx = .ok s' ↔ Passes d s p ∧ s' = sale p (p.quote s) s := by
  have hregister : Registrar.step (theRegistry out d) d.registrar (s.registrar, s.registry, s.world)
      ⟨p.env, .register p.label p.owner p.years p.maxPrice p.nowUnix⟩
      = Registrar.register (theRegistry out d) d.registrar p.env s.registrar (s.registry, s.world) p.label p.owner
          p.years p.maxPrice p.nowUnix := rfl
  unfold Purchase.tx
  rw [step_registrar_eq_ok, hregister, Registrar.register_eq_checks, bind_eq_ok]
  constructor
  · rintro ⟨name, hpass, hmap⟩
    obtain rfl := name_of_checks hpass
    obtain ⟨⟨g', w'⟩, hcall, heq⟩ := map_eq_ok.mp hmap
    obtain ⟨hwired, hregistrable, rfl, rfl⟩ := (saleCall_eq_ok hnft).mp hcall
    obtain ⟨hr, hgw⟩ := Prod.mk.inj heq
    obtain ⟨hg, hw⟩ := Prod.mk.inj hgw
    refine ⟨⟨hpass, hwired, hregistrable⟩, ?_⟩
    show (⟨s'.registrar, s'.registry, s'.world⟩ : State ω) = _
    rw [← hr, ← hg, ← hw]
    rfl
  · rintro ⟨h, rfl⟩
    exact ⟨p.name, h.registrar, map_eq_ok.mpr ⟨_, (saleCall_eq_ok hnft).mpr ⟨h.wired, h.registry, rfl, rfl⟩, rfl⟩⟩

/-! ## Different labels, different owners -/

/-- **A purchase after another one** is the purchase before it, with the other one's writes carried over. -/
theorem carry (hnft : s.registry.nftContract = none) (hlabel : p.label ≠ q.label) (howner : p.owner ≠ q.owner)
    (quote : Registrar.RegistrationQuote) :
    step out d (sale p quote s) q.tx = (step out d s q.tx).map (sale p quote) := by
  have hname : buildXlmName q.label ≠ .ok p.name :=
    fun h => name_ne hlabel (buildXlmName_eq_ok.mp h).2
  have hcarry : Registrar.register (theRegistry out d) d.registrar q.env
      (Registrar.afterRegister s.registrar p.name p.owner quote p.nowUnix) (registrySale p quote (s.registry, s.world))
      q.label q.owner q.years q.maxPrice q.nowUnix
      = (Registrar.register (theRegistry out d) d.registrar q.env s.registrar (s.registry, s.world) q.label q.owner
          q.years q.maxPrice q.nowUnix).map
          (Prod.map (fun r => Registrar.afterRegister r p.name p.owner quote p.nowUnix) (registrySale p quote)) := by
    apply Registrar.register_afterRegister hname howner.symm
    -- the nested call carries the registry's half over
    intro env addr name' quote' hne
    show (if addr = d.registry then _ else _) = Option.map _ (if addr = d.registry then _ else _)
    split
    · exact Registry.register_registered hnft hne howner.symm
    · rfl
  show embed _ _ (Registrar.register (theRegistry out d) d.registrar q.env
      (Registrar.afterRegister s.registrar p.name p.owner quote p.nowUnix) (registrySale p quote (s.registry, s.world))
      q.label q.owner q.years q.maxPrice q.nowUnix)
    = Except.map _ (embed _ _ (Registrar.register (theRegistry out d) d.registrar q.env s.registrar
      (s.registry, s.world) q.label q.owner q.years q.maxPrice q.nowUnix))
  rw [hcarry]
  cases Registrar.register (theRegistry out d) d.registrar q.env s.registrar (s.registry, s.world) q.label q.owner
    q.years q.maxPrice q.nowUnix <;> rfl

theorem sale_comm (hlabel : p.label ≠ q.label) (howner : p.owner ≠ q.owner)
    (quote quote' : Registrar.RegistrationQuote) : sale p quote (sale q quote' s) = sale q quote' (sale p quote s) := by
  have hn := name_ne hlabel
  unfold sale
  rw [State.mk.injEq]
  exact ⟨Registrar.afterRegister_comm hn.symm howner.symm, Registry.registered_comm hn.symm howner.symm, rfl⟩

/-- **Independent purchases commute.** -/
theorem purchases_commute (hnft : s.registry.nftContract = none) (hlabel : p.label ≠ q.label)
    (howner : p.owner ≠ q.owner) : CommuteAt (step out d) s p.tx q.tx := by
  refine commute_of_updates (fun s' hok => ((step_purchase hnft).mp hok).2)
    (fun s' hok => ((step_purchase hnft).mp hok).2) ?_ ?_ (sale_comm hlabel howner _ _)
  · rintro _
    exact carry hnft hlabel howner _
  · rintro _
    exact carry hnft hlabel.symm howner.symm _

/-! ## One label -/

/-- **After a sale nobody buys the name before its grace period is over.** -/
theorem rejected_later (hok : step out d s p.tx = .ok s') (hlabel : q.label = p.label)
    (htime : q.nowUnix ≤ p.heldUntil s) : ∃ e, step out d s' q.tx = .error e := by
  cases hq : step out d s' q.tx with
  | error e => exact ⟨e, rfl⟩
  | ok s'' =>
      obtain ⟨_, _, _, _, _, _, _, name, hname, _, hs, _⟩ := Registrar.register_eq_ok.mp (step_registrar_eq_ok.mp hok)
      obtain ⟨_, _, _, _, _, _, _, name', hname', hfree, _⟩ := Registrar.register_eq_ok.mp (step_registrar_eq_ok.mp hq)
      rw [hlabel] at hname'
      obtain rfl := Except.ok.inj (hname.symm.trans hname')
      -- the record just sold is held until then
      have hrecord : s'.registrar.registration name = some (Registrar.soldRecord name p.owner (p.quote s) p.nowUnix) := by
        rw [hs]
        exact Store.set_self _ _ _
      exact absurd htime (UInt64.not_le.mpr (hfree _ hrecord))

theorem accepts_iff_passes (hnft : s.registry.nftContract = none) :
    accepts (step out d) s p.tx = true ↔ Passes d s p := by
  unfold accepts
  rw [← exists_eq_ok_iff]
  constructor
  · rintro ⟨s', hok⟩
    exact ((step_purchase hnft).mp hok).1
  · intro h
    exact ⟨_, (step_purchase hnft).mpr ⟨h, rfl⟩⟩

/-- **Of purchases of one label, each made within the term and grace of the earlier ones**, the first that is accepted
    at `s` commits, and no other. -/
theorem one_label_commits {ps : List Purchase} (hlabel : ∀ p ∈ ps, ∀ q ∈ ps, p.label = q.label)
    (htime : ps.Pairwise (fun p q => q.nowUnix ≤ p.heldUntil s)) :
    commits (step out d) s (ps.map Purchase.tx)
      = ((ps.map Purchase.tx).filter (accepts (step out d) s)).take 1 := by
  apply commits_of_exclusive
  rw [List.pairwise_map]
  refine htime.imp_of_mem ?_
  intro p q hp hq hheld s' hok
  exact rejected_later hok (hlabel q hq p hp) hheld

/-- **The order of `register` calls**, at every state of the two contracts without an NFT contract. Calls with different
    labels and different owners commute, whatever their years, prices, times and signers: each is told what it is told
    alone, and both contracts end the same. Of calls on one label within the term and grace of the earlier ones,
    exactly the first that passes its own checks succeeds. -/
theorem registrations_commute (out : Registry.Outside ω) (d : Deployment) (s : State ω)
    (hnft : s.registry.nftContract = none) :
    (∀ p q : Purchase, p.label ≠ q.label → p.owner ≠ q.owner → CommuteAt (step out d) s p.tx q.tx) ∧
    (∀ p : Purchase, accepts (step out d) s p.tx = true ↔ Passes d s p) ∧
    ∀ ps : List Purchase, (∀ p ∈ ps, ∀ q ∈ ps, p.label = q.label) →
      ps.Pairwise (fun p q => q.nowUnix ≤ p.heldUntil s) →
      commits (step out d) s (ps.map Purchase.tx)
        = ((ps.map Purchase.tx).filter (accepts (step out d) s)).take 1 :=
  ⟨fun _ _ hlabel howner => purchases_commute hnft hlabel howner, fun _ => accepts_iff_passes hnft,
    fun _ hlabel htime => one_label_commits hlabel htime⟩

namespace SameLedger

open Cast

/-- The two contracts just after deployment. -/
def start : State Unit := deployed contracts admin ()

/-- Somebody buys a label for a year. -/
def buys (label : String) (owner : Address) : Purchase where
  env      := ⟨1000000, [owner], none⟩
  label    := ascii label
  owner    := owner
  years    := 1
  maxPrice := 250000000
  nowUnix  := 1000000

/-- Two names sold in one ledger, and one name two buyers want. -/
theorem two_buyers : CommuteAt (step Registry.nothingOutside contracts) start (buys "alice" alice).tx (buys "bobby" bob).tx ∧
    commits (step Registry.nothingOutside contracts) start [(buys "alice" alice).tx, (buys "alice" bob).tx]
      = [(buys "alice" alice).tx] := by
  obtain ⟨hcommute, _, hone⟩ := registrations_commute Registry.nothingOutside contracts start rfl
  refine ⟨hcommute _ _ (by decide) (by decide), ?_⟩
  have hfirst : accepts (step Registry.nothingOutside contracts) start (buys "alice" alice).tx = true := by decide +kernel
  have hcommits := hone [buys "alice" alice, buys "alice" bob] (by decide) (by decide)
  rw [List.map_cons, List.filter_cons_of_pos hfirst] at hcommits
  exact hcommits

end SameLedger

end XlmNs.RegistrarRegistry
