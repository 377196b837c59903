import XlmNs.Soroban.EventLog
import XlmNs.System.Agreement
import XlmNs.System.TokenAgreement

/-!
# `System.Stack` — registrar, registry and NFT contract together

The deployment has all three: a purchase at the registrar becomes a registration in the registry, and that a minting in
the NFT contract, in one transaction. The two pairs of contracts modelled before are both parts of it (`State.sales`,
`State.tokens`).

`seen_by_tokens`: to registry and NFT contract a run of the three is a run of the two, with the registrar as one more
caller. `story_iff` puts the two agreements together: records, entries and tokens say the same throughout a run iff no
accepted transaction changes a tenure in some of the three places only.
-/

namespace XlmNs.Stack

open Soroban

/-- The addresses the three contracts are deployed at. -/
structure Deployment where
  registrar : Address
  registry  : Address
  nft       : Address

/-- The deployment of the concrete runs. -/
def contracts : Deployment := ⟨Cast.registrar, Cast.registry, Cast.nft⟩

/-- The storage of the three contracts, and the state of everything else. -/
structure State (ω : Type) where
  registrar : Registrar.State
  registry  : Registry.State
  nft       : Nft.State
  world     : ω

/-- A transaction invokes one of the three contracts. -/
inductive Call
  | registrar (c : Registrar.Call)
  | registry (c : Registry.Call)
  | nft (c : Nft.Call)

/-- How a transaction fails, in the pair of contracts that ran it. -/
inductive Failure
  | sales (f : RegistrarRegistry.Failure)
  | tokens (f : RegistryNft.Failure)

variable {ω : Type}

/-! ## The two pairs -/

/-- Where the registrar and the registry are. -/
def Deployment.sales (d : Deployment) : RegistrarRegistry.Deployment := ⟨d.registrar, d.registry⟩

/-- Where the registry and the NFT contract are. -/
def Deployment.tokens (d : Deployment) : RegistryNft.Deployment := ⟨d.registry, d.nft⟩

/-- To registrar and registry, the NFT contract is part of the world. -/
def State.sales (s : State ω) : RegistrarRegistry.State (Nft.State × ω) := ⟨s.registrar, s.registry, s.nft, s.world⟩

/-- The registry and the NFT contract as a pair. -/
def State.tokens (s : State ω) : RegistryNft.State ω := ⟨s.registry, s.nft, s.world⟩

/-- The three contracts, from the first pair with the NFT contract in its world. -/
def ofSales (u : RegistrarRegistry.State (Nft.State × ω)) : State ω := ⟨u.registrar, u.registry, u.world.1, u.world.2⟩

/-- The sales machine, with the real NFT contract behind the registry. -/
def salesStep (out : RegistryNft.Outside ω) (d : Deployment) :
    RegistrarRegistry.State (Nft.State × ω) → Tx RegistrarRegistry.Call →
      Except RegistrarRegistry.Failure (RegistrarRegistry.State (Nft.State × ω)) :=
  RegistrarRegistry.step (RegistryNft.theNft out d.tokens) d.sales

/-- **One transaction**: it invokes one of the three contracts, which may call the others. -/
def step (out : RegistryNft.Outside ω) (d : Deployment) (s : State ω) (t : Tx Call) : Except Failure (State ω) :=
  match t.call with
  | .registrar c => embed ofSales Failure.sales (salesStep out d s.sales ⟨t.env, .registrar c⟩)
  | .registry c  => embed ofSales Failure.sales (salesStep out d s.sales ⟨t.env, .registry c⟩)
  | .nft c =>
      embed (fun u => ⟨s.registrar, u.registry, u.nft, u.world⟩) Failure.tokens
        (RegistryNft.step out d.tokens s.tokens ⟨t.env, .nft c⟩)

/-- The three contracts just after deployment, linked to each other; the NFT contract with or without a registry link of
    its own. -/
def deployed (d : Deployment) (admin : Address) (link : Option Address) (w : ω) : State ω :=
  let pair := RegistryNft.deployed d.tokens admin (some d.nft) link w
  ⟨Registrar.State.initialized d.registry admin, pair.registry, pair.nft, w⟩

variable {out : RegistryNft.Outside ω} {d : Deployment} {env : Env} {s s' : State ω}

theorem step_registrar_eq_ok {c : Registrar.Call} :
    step out d s ⟨env, .registrar c⟩ = .ok s' ↔ salesStep out d s.sales ⟨env, .registrar c⟩ = .ok s'.sales := by
  refine embed_eq_ok.trans ⟨?_, fun h => ⟨_, h, rfl⟩⟩
  rintro ⟨_, h, rfl⟩
  exact h

theorem step_registry_eq_ok {c : Registry.Call} :
    step out d s ⟨env, .registry c⟩ = .ok s' ↔ salesStep out d s.sales ⟨env, .registry c⟩ = .ok s'.sales := by
  refine embed_eq_ok.trans ⟨?_, fun h => ⟨_, h, rfl⟩⟩
  rintro ⟨_, h, rfl⟩
  exact h

theorem step_nft_eq_ok {c : Nft.Call} :
    step out d s ⟨env, .nft c⟩ = .ok s' ↔
      s'.registrar = s.registrar ∧ RegistryNft.step out d.tokens s.tokens ⟨env, .nft c⟩ = .ok s'.tokens := by
  refine embed_eq_ok.trans ⟨?_, ?_⟩
  · rintro ⟨_, h, rfl⟩
    exact ⟨rfl, h⟩
  · rintro ⟨hsame, h⟩
    exact ⟨_, h, by rw [← hsame]; rfl⟩

/-! ## What registry and NFT contract see -/

/-- The registry invocation a transaction contains: itself, or the call a sale makes. -/
def seen (d : Deployment) (s : State ω) (t : Tx Call) : List (Tx RegistryNft.Call) :=
  match t.call with
  | .registrar c =>
      ((c.nested s.registrar).map fun call =>
        ⟨t.env.callFrom d.registrar, .registry (RegistrarRegistry.entrypoint call)⟩).toList
  | .registry c => [⟨t.env, .registry c⟩]
  | .nft c      => [⟨t.env, .nft c⟩]

/-- A direct registry invocation is one of the pair. -/
theorem tokens_of_registry {c : Registry.Call} (h : step out d s ⟨env, .registry c⟩ = .ok s') :
    RegistryNft.step out d.tokens s.tokens ⟨env, .registry c⟩ = .ok s'.tokens := by
  obtain ⟨_, hstep⟩ := RegistrarRegistry.step_registry_eq_ok.mp (step_registry_eq_ok.mp h)
  exact RegistryNft.step_registry_eq_ok.mpr hstep

/-- So is the registry call of a sale. -/
theorem tokens_of_sale {c : Registrar.Call} (hsale : c.isSale = true)
    (h : step out d s ⟨env, .registrar c⟩ = .ok s') :
    ∃ call, c.nested s.registrar = some call ∧
      RegistryNft.step out d.tokens s.tokens
        ⟨env.callFrom d.registrar, .registry (RegistrarRegistry.entrypoint call)⟩ = .ok s'.tokens := by
  have hstep := RegistrarRegistry.step_registrar_eq_ok.mp (step_registrar_eq_ok.mp h)
  obtain ⟨_, call, hnested, hcall⟩ := (Registrar.sale_eq_ok hsale).mp hstep
  obtain ⟨registry, _, hinvoke⟩ := Registrar.callRegistry_eq_ok.mp hcall
  simp only [RegistrarRegistry.theRegistry] at hinvoke
  split at hinvoke
  · exact ⟨call, hnested, RegistryNft.step_registry_eq_ok.mpr (toOption_eq_some.mp hinvoke)⟩
  · -- the registrar knows no other registry
    cases hinvoke

theorem nested_of_quiet {c : Registrar.Call} {r : Registrar.State} (h : c.isSale = false) : c.nested r = none := by
  cases c with
  | register | renew | extendDuringGrace => cases h
  | _ => rfl

/-- The other registrar calls do not reach the pair. -/
theorem tokens_of_quiet {c : Registrar.Call} (hquiet : c.isSale = false)
    (h : step out d s ⟨env, .registrar c⟩ = .ok s') : s'.tokens = s.tokens := by
  have hstep := RegistrarRegistry.step_registrar_eq_ok.mp (step_registrar_eq_ok.mp h)
  obtain ⟨_, hworld⟩ := Registrar.step_administration hstep hquiet
  have hregistry : s'.registry = s.registry := congrArg Prod.fst hworld
  have hnft : s'.nft = s.nft := congrArg (fun w => w.2.1) hworld
  have hrest : s'.world = s.world := congrArg (fun w => w.2.2) hworld
  simp only [State.tokens, hregistry, hnft, hrest]

/-- **A committed transaction, as registry and NFT contract see it.** -/
theorem seenAs (out : RegistryNft.Outside ω) (d : Deployment) :
    SeenAs (step out d) (RegistryNft.step out d.tokens) (seen d) State.tokens := by
  rintro s ⟨env, c⟩ s' h
  have hone : ∀ u, RegistryNft.step out d.tokens s.tokens u = .ok s'.tokens →
      run (RegistryNft.step out d.tokens) s.tokens [u] = s'.tokens ∧
        Along (RegistryNft.step out d.tokens) (fun m u => ∃ m', RegistryNft.step out d.tokens m u = .ok m')
          s.tokens [u] := by
    intro u hu
    exact ⟨exec_ok hu, ⟨_, hu⟩, trivial⟩
  cases c with
  | registry c => exact hone _ (tokens_of_registry h)
  | nft c => exact hone _ (step_nft_eq_ok.mp h).2
  | registrar c =>
      cases hsale : c.isSale with
      | true =>
          obtain ⟨call, hnested, hcall⟩ := tokens_of_sale hsale h
          simp only [seen, hnested, Option.map_some, Option.toList_some]
          exact hone _ hcall
      | false =>
          simp only [seen, nested_of_quiet hsale, Option.map_none, Option.toList_none]
          exact ⟨(tokens_of_quiet hsale h).symm, trivial⟩

/-- The run of the pair a run of the three contains. -/
def seenRun (out : RegistryNft.Outside ω) (d : Deployment) (s : State ω) (ts : List (Tx Call)) :
    List (Tx RegistryNft.Call) :=
  published (step out d) (seen d) s ts

/-- **To registry and NFT contract, a run of the three contracts is a run of the two**, all of whose transactions commit:
    the direct calls and the calls of the registrar's sales, in order. What holds along the runs of the two holds along the
    runs of the three. -/
theorem seen_by_tokens (out : RegistryNft.Outside ω) (d : Deployment) (s : State ω) (ts : List (Tx Call)) :
    run (RegistryNft.step out d.tokens) s.tokens (seenRun out d s ts) = (run (step out d) s ts).tokens ∧
      Along (RegistryNft.step out d.tokens) (fun m u => ∃ m', RegistryNft.step out d.tokens m u = .ok m')
        s.tokens (seenRun out d s ts) :=
  ⟨(seenAs out d).run_eq s ts, (seenAs out d).committed s ts⟩

/-! ## One story -/

/-- **Records, entries and tokens agree** at ledger time `now`. -/
structure OneStory (now : UInt64) (s : State ω) : Prop where
  sales  : RegistrarRegistry.Agree now s.sales
  tokens : RegistryNft.Agrees s.tokens

theorem OneStory.later {now now' : UInt64} (h : OneStory now s) (hle : now ≤ now') : OneStory now' s :=
  ⟨h.sales.later hle, h.tokens⟩

theorem oneStory_deployed (d : Deployment) (admin : Address) (link : Option Address) (w : ω) (now : UInt64) :
    OneStory now (deployed d admin link w) :=
  ⟨Store.Mirrors.empty _ _, RegistryNft.agrees_deployed d.tokens admin (some d.nft) link w⟩

/-- The three agree after the transaction, at its ledger time. -/
def AgreesAfter (out : RegistryNft.Outside ω) (d : Deployment) (s : State ω) (t : Tx Call) : Prop :=
  OneStory t.env.timestamp (exec (step out d) s t)

/-- What a transaction needs: a direct registry call keeps the registrar's record, and whatever reaches registry or NFT
    contract changes the tenures of both or of neither. -/
def KeepsStory (d : Deployment) (s : State ω) (t : Tx Call) : Prop :=
  (∀ c, t.call = .registry c → RegistrarRegistry.KeepsRecord t.env.timestamp s.sales c) ∧
    ∀ u ∈ seen d s t, RegistryNft.Keeps d.tokens s.tokens u.call

/-- What the sales pair sees of a committed transaction. -/
theorem agree_step_iff {t : Tx Call} (h : RegistrarRegistry.Agree t.env.timestamp s.sales)
    (hok : step out d s t = .ok s') :
    RegistrarRegistry.Agree t.env.timestamp s'.sales ↔
      ∀ c, t.call = .registry c → RegistrarRegistry.KeepsRecord t.env.timestamp s.sales c := by
  obtain ⟨env, c⟩ := t
  cases c with
  | registrar c =>
      have heffect := RegistrarRegistry.step_effect (step_registrar_eq_ok.mp hok)
      refine iff_of_true (heffect.mirrors h) ?_
      intro _ hcall
      cases hcall
  | registry c =>
      have heffect := RegistrarRegistry.step_effect (step_registry_eq_ok.mp hok)
      cases heffect with
      | direct hrecord hchange =>
          refine (h.direct_iff hrecord hchange).trans ⟨?_, fun hkeep => hkeep c rfl⟩
          intro hkeep c' hcall
          obtain rfl := Call.registry.inj hcall
          exact hkeep
  | nft c =>
      -- the NFT contract reaches neither of the two
      obtain ⟨hregistrar, hstep⟩ := step_nft_eq_ok.mp hok
      have hregistry : s'.registry = s.registry := RegistryNft.registry_of_nft hstep
      have hagree : RegistrarRegistry.Agree env.timestamp s'.sales := by
        unfold RegistrarRegistry.Agree at h ⊢
        simp only [State.sales, hregistrar, hregistry] at h ⊢
        exact h
      refine iff_of_true hagree ?_
      intro _ hcall
      cases hcall

/-- What the token pair sees of it. -/
theorem agrees_step_iff {t : Tx Call} (h : RegistryNft.Agrees s.tokens) (hok : step out d s t = .ok s') :
    RegistryNft.Agrees s'.tokens ↔ ∀ u ∈ seen d s t, RegistryNft.Keeps d.tokens s.tokens u.call := by
  have hone : ∀ u, RegistryNft.step out d.tokens s.tokens u = .ok s'.tokens →
      (RegistryNft.Agrees s'.tokens ↔ ∀ u' ∈ [u], RegistryNft.Keeps d.tokens s.tokens u'.call) := by
    intro u hu
    rw [List.forall_mem_singleton]
    exact RegistryNft.agrees_step_iff h hu
  obtain ⟨env, c⟩ := t
  cases c with
  | registry c => exact hone _ (tokens_of_registry hok)
  | nft c => exact hone _ (step_nft_eq_ok.mp hok).2
  | registrar c =>
      cases hsale : c.isSale with
      | true =>
          obtain ⟨call, hnested, hcall⟩ := tokens_of_sale hsale hok
          simp only [seen, hnested, Option.map_some, Option.toList_some]
          exact hone _ hcall
      | false =>
          rw [tokens_of_quiet hsale hok]
          simp only [seen, nested_of_quiet hsale, Option.map_none, Option.toList_none]
          exact iff_of_true h (List.forall_mem_nil _)

/-- **One step, exactly.** -/
theorem agreesAfter_iff {t : Tx Call} (h : OneStory t.env.timestamp s) :
    AgreesAfter out d s t ↔ ((∃ s', step out d s t = .ok s') → KeepsStory d s t) := by
  apply exec_iff h
  intro s' hok
  constructor
  · rintro ⟨hsales, htokens⟩
    exact ⟨(agree_step_iff h.sales hok).mp hsales, (agrees_step_iff h.tokens hok).mp htokens⟩
  · rintro ⟨hrecord, hkeeps⟩
    exact ⟨(agree_step_iff h.sales hok).mpr hrecord, (agrees_step_iff h.tokens hok).mpr hkeeps⟩

/-! ## Whole runs -/

/-- An accepted transaction changes no tenure in some of the three places only. -/
def AcceptedKeepsStory (out : RegistryNft.Outside ω) (d : Deployment) (s : State ω) (t : Tx Call) : Prop :=
  (∃ s', step out d s t = .ok s') → KeepsStory d s t

/-- **Linked from the start, records, entries and tokens agree throughout a run iff every accepted transaction of it
    keeps the story.** The run is in ledger order; anyone may call any of the three contracts, in any interleaving. -/
theorem story_iff (out : RegistryNft.Outside ω) (d : Deployment) (admin : Address) (link : Option Address) (w : ω)
    {ts : List (Tx Call)} (horder : LedgerOrder ts) :
    Along (step out d) (AgreesAfter out d) (deployed d admin link w) ts ↔
      Along (step out d) (AcceptedKeepsStory out d) (deployed d admin link w) ts := by
  have hlater : ∀ a b (s : State ω), OneStory a s → a ≤ b → OneStory b s := fun _ _ _ h hle => h.later hle
  have hiff : ∀ s (t : Tx Call), OneStory t.env.timestamp s → (AgreesAfter out d s t ↔ AcceptedKeepsStory out d s t) :=
    fun _ _ h => agreesAfter_iff h
  have hfirst : ∀ t ∈ ts, OneStory t.env.timestamp (deployed d admin link w) :=
    fun t _ => oneStory_deployed d admin link w t.env.timestamp
  exact along_iff_timed hlater hiff (fun _ _ _ hafter => hafter) horder hfirst

/-! ## Sales through the registrar -/

/-- The transaction is the registrar's, or leaves owners, expiries and the link alone. -/
def Call.IsOrderly : Call → Prop
  | .registrar _ => True
  | .registry c  => c.isLifecycle = false ∧ ∀ nftContract, c ≠ .setNftContract nftContract
  | .nft c =>
      match c with
      | .mint .. | .transfer .. | .transferFrom .. | .burn .. | .syncExpiry .. | .syncOwner .. => False
      | _ => True

/-- The registry is linked to the NFT contract. -/
def Linked (d : Deployment) (s : State ω) : Prop := s.registry.nftContract = some d.nft

theorem entrypoint_isPassedOn (call : Registrar.RegistryCall) : (RegistrarRegistry.entrypoint call).isPassedOn = true := by
  cases call <;> rfl

theorem linked_step {t : Tx Call} (hlinked : Linked d s) (ht : t.call.IsOrderly) (hok : step out d s t = .ok s') :
    Linked d s' := by
  obtain ⟨env, c⟩ := t
  have hregistry : ∀ env c, (∀ a, c ≠ .setNftContract a) →
      RegistryNft.step out d.tokens s.tokens ⟨env, .registry c⟩ = .ok s'.tokens → Linked d s' := by
    intro env c hc hstep
    exact (Registry.step_nftContract (RegistryNft.step_registry_eq_ok.mp hstep) hc).trans hlinked
  cases c with
  | registry c => exact hregistry env c ht.2 (tokens_of_registry hok)
  | nft c =>
      have hsame : s'.registry = s.registry := RegistryNft.registry_of_nft (step_nft_eq_ok.mp hok).2
      unfold Linked
      rw [hsame]
      exact hlinked
  | registrar c =>
      cases hsale : c.isSale with
      | true =>
          obtain ⟨call, _, hcall⟩ := tokens_of_sale hsale hok
          refine hregistry _ _ ?_ hcall
          intro a
          cases call <;> exact nofun
      | false =>
          have hsame : s'.registry = s.registry := congrArg RegistryNft.State.registry (tokens_of_quiet hsale hok)
          unfold Linked
          rw [hsame]
          exact hlinked

theorem keepsStory_of_orderly {t : Tx Call} (hlinked : Linked d s) (ht : t.call.IsOrderly) : KeepsStory d s t := by
  obtain ⟨env, c⟩ := t
  cases c with
  | registrar c =>
      refine ⟨nofun, ?_⟩
      intro u hu
      obtain ⟨call, _, rfl⟩ := Option.map_eq_some_iff.mp (Option.mem_toList.mp hu)
      exact RegistryNft.keeps_of_linked hlinked (entrypoint_isPassedOn call)
  | registry c =>
      obtain ⟨hquiet, _⟩ := ht
      constructor
      · intro c' hcall
        obtain rfl := Call.registry.inj hcall
        exact RegistrarRegistry.keepsRecord_of_quiet hquiet
      · intro u hu
        obtain rfl := List.mem_singleton.mp hu
        cases c with
        | register | transfer | updateOwner | renew | burn => cases hquiet
        | _ => trivial
  | nft c =>
      refine ⟨nofun, ?_⟩
      intro u hu
      obtain rfl := List.mem_singleton.mp hu
      cases c with
      | mint | transfer | transferFrom | burn | syncExpiry | syncOwner => cases ht
      | _ => trivial

/-- **Sold, renewed and extended through the registrar alone, a name is the same in all three contracts**, after every
    transaction of a run, as long as the registry stays linked to the NFT contract: of the calls that are not about owners
    and expiries, only another `set_nft_contract` could part them. -/
theorem sales_keep_one_story (out : RegistryNft.Outside ω) (d : Deployment) (admin : Address) (link : Option Address)
    (w : ω) {ts : List (Tx Call)} (horder : LedgerOrder ts) (horderly : ∀ t ∈ ts, t.call.IsOrderly) :
    Along (step out d) (AgreesAfter out d) (deployed d admin link w) ts := by
  have hlinked : Linked d (deployed d admin link w) := rfl
  have hstory : ∀ t ∈ ts, OneStory t.env.timestamp (deployed d admin link w) :=
    fun t _ => oneStory_deployed d admin link w t.env.timestamp
  generalize deployed d admin link w = s at hlinked hstory ⊢
  induction ts generalizing s with
  | nil => trivial
  | cons t ts ih =>
      obtain ⟨hfirst, horder'⟩ := List.pairwise_cons.mp horder
      have ht : t.call.IsOrderly := horderly t List.mem_cons_self
      have hafter : AgreesAfter out d s t :=
        (agreesAfter_iff (hstory t List.mem_cons_self)).mpr (fun _ => keepsStory_of_orderly hlinked ht)
      refine ⟨hafter, ih horder' (fun u hu => horderly u (List.mem_cons_of_mem t hu)) _ ?_ ?_⟩
      · exact exec_of_ok hlinked (fun s' hok => linked_step hlinked ht hok)
      · intro u hu
        exact OneStory.later hafter (hfirst u hu)

/-! ## A purchase, seen in all three -/

namespace Purchase

open Cast
open RegistryNft (nothingOutside)

/-- Alice buys her name at the registrar. -/
def order : Tx Call := ⟨⟨1000, [alice], none⟩, .registrar (.register (ascii "alice") alice 1 250000000 1000)⟩

/-- She sells the token in the NFT contract. -/
def sell : Tx Call := ⟨⟨2000, [alice], none⟩, .nft (.transfer aliceXlm alice bob)⟩

theorem order_reaches_token :
    Nft.tenure (run (step nothingOutside contracts) (deployed contracts admin none ()) [order]).nft aliceXlm
      = some (alice, 31537000) := by decide +kernel

/-- The purchase keeps the story, the sale of the token does not. -/
theorem order_sell_story :
    Along (step nothingOutside contracts) (AgreesAfter nothingOutside contracts) (deployed contracts admin none ())
        [order] ∧
      ¬ Along (step nothingOutside contracts) (AgreesAfter nothingOutside contracts)
        (deployed contracts admin none ()) [order, sell] := by
  constructor
  · refine (story_iff nothingOutside contracts admin none () (by decide)).mpr ⟨?_, trivial⟩
    intro _
    exact keepsStory_of_orderly rfl trivial
  · intro h
    obtain ⟨_, hsell, _⟩ := (story_iff nothingOutside contracts admin none () (by decide)).mp h
    have haccepted : ∃ s', step nothingOutside contracts
        (exec (step nothingOutside contracts) (deployed contracts admin none ()) order) sell = .ok s' := by
      rw [exists_eq_ok_iff]
      decide +kernel
    have hkeeps := (hsell haccepted).2 _ List.mem_cons_self
    have htoken := order_reaches_token
    exact absurd (hkeeps _ htoken) (by decide)

theorem order_keeps_one_story :
    Along (step nothingOutside contracts) (AgreesAfter nothingOutside contracts) (deployed contracts admin none ())
      [order] :=
  sales_keep_one_story nothingOutside contracts admin none () (by decide)
    (fun _ ht => by obtain rfl := List.mem_singleton.mp ht; trivial)

end Purchase

end XlmNs.Stack
