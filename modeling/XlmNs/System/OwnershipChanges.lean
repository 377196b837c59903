import XlmNs.System.RegistryResolver

/-!
# `System.OwnershipChanges` — two ways for a name to change hands

The registry moves a name to a new owner in `transfer`, and in `update_owner` on behalf of its NFT contract. Both leave
the same registry behind (`same_registry`). The mappings from the previous owner's own address to the name should go, but
only `transfer` calls `clear_reverse_record` for it: after `update_owner` they are gone exactly if they were not there
before (`cleaned_iff`).
-/

namespace XlmNs.RegistryResolver

open Soroban

variable {ω : Type} {out : Outside ω} {d : Deployment} {env env₁ env₂ : Env} {s s' s₁ s₂ : State ω}
variable {name : Bytes} {newOwner : Address} {e : RegistryEntry}

/-- **The two ways**, with what else they are given. -/
inductive Path
  | transfer (caller : Address) (nowUnix : UInt64)
  | updateOwner (caller : Address)

/-- The entrypoint of a path. -/
def Path.call (name : Bytes) (newOwner : Address) : Path → Registry.Call
  | .transfer caller nowUnix => .transfer name caller newOwner nowUnix
  | .updateOwner caller      => .updateOwner name caller newOwner

/-- The path is `transfer`. -/
def Path.isTransfer : Path → Bool
  | .transfer .. => true
  | .updateOwner .. => false

/-- The name's entry names the resolver of the deployment. -/
structure ResolverSet (out : Outside ω) (d : Deployment) (s : State ω) (name : Bytes) (e : RegistryEntry) : Prop where
  entry    : s.registry.entry name = some e
  resolver : ∃ id, e.resolver = some id ∧ out.addressFromString id = some d.resolver

/-- **No mapping from an owner's own address to the name.** -/
structure Cleaned (r : Resolver.State) (name : Bytes) (owner : Address) : Prop where
  reverse : r.reverse owner.toString ≠ some name
  primary : r.primary owner.toString ≠ some name

/-! ## The registry -/

/-- `update_owner` calls nobody. -/
theorem step_updateOwner {caller : Address} (h : step out d s ⟨env, .registry (.updateOwner name caller newOwner)⟩ = .ok s') :
    Registry.updateOwner env s.registry name caller newOwner = .ok s'.registry ∧ s'.resolver = s.resolver := by
  obtain ⟨g, hupdate, hsame⟩ := bind_eq_ok.mp (step_registry_eq_ok.mp h)
  obtain ⟨rfl, hrest⟩ := Prod.mk.inj (pure_eq_ok.mp hsame)
  obtain ⟨hresolver, _⟩ := Prod.mk.inj hrest
  exact ⟨hupdate, hresolver.symm⟩

/-- On both ways the entry is rewritten and moves to the new owner's list, a lock that has run out being lifted. -/
theorem moved (path : Path) (h : step out d s ⟨env, .registry (path.call name newOwner)⟩ = .ok s') :
    ∃ e, s.registry.entry name = some e ∧
      s'.registry = Registry.moveName (Registry.removeLock s.registry name) name e newOwner := by
  cases path with
  | transfer caller nowUnix =>
      obtain ⟨_, _, e, he, _, _, hmoved, _⟩ := Registry.transfer_eq_ok.mp (step_registry_eq_ok.mp h)
      exact ⟨e, he, hmoved⟩
  | updateOwner caller =>
      obtain ⟨_, _, _, e, he, _, hmoved⟩ := Registry.updateOwner_eq_ok.mp (step_updateOwner h).1
      exact ⟨e, he, hmoved⟩

/-- **The registry is the same on both ways**, whoever calls and at whatever times. -/
theorem same_registry {path₁ path₂ : Path} (h₁ : step out d s ⟨env₁, .registry (path₁.call name newOwner)⟩ = .ok s₁)
    (h₂ : step out d s ⟨env₂, .registry (path₂.call name newOwner)⟩ = .ok s₂) : s₁.registry = s₂.registry := by
  obtain ⟨e₁, he₁, hmoved₁⟩ := moved path₁ h₁
  obtain ⟨e₂, he₂, hmoved₂⟩ := moved path₂ h₂
  obtain rfl := Option.some.inj (he₁.symm.trans he₂)
  exact hmoved₁.trans hmoved₂.symm

/-! ## The resolver -/

theorem cleaned_cleanup (r : Resolver.State) (name : Bytes) (owner : Address) :
    Cleaned (Resolver.cleanupStaleReverse r owner.toString name) name owner := by
  constructor
  · simp only [Resolver.cleanupStaleReverse]
    split
    · rw [Store.remove_self]
      intro h
      cases h
    · assumption
  · simp only [Resolver.cleanupStaleReverse]
    split
    · rw [Store.remove_self]
      intro h
      cases h
    · assumption

/-- The resolver does not notice a nested NFT call. -/
theorem callNft_resolver {g : Registry.State} {call : Registry.NftCall} {rw rw' : Resolver.State × ω}
    (h : Registry.callNft (theResolver out d) d.registry env g call rw = .ok rw') : rw'.1 = rw.1 := by
  unfold Registry.callNft at h
  split at h
  · obtain ⟨_, _, rfl⟩ := Option.map_eq_some_iff.mp (invoke_eq_ok.mp h)
    rfl
  · obtain rfl := pure_eq_ok.mp h
    rfl

/-- **A transfer cleans the resolver** of the entry. -/
theorem transfer_resolver {caller : Address} {nowUnix : UInt64} (hset : ResolverSet out d s name e)
    (h : step out d s ⟨env, .registry (.transfer name caller newOwner nowUnix)⟩ = .ok s') :
    s'.resolver = Resolver.cleanupStaleReverse s.resolver e.owner.toString name := by
  obtain ⟨_, _, e', he', _, _, _, rw, hcall, hnft⟩ := Registry.transfer_eq_ok.mp (step_registry_eq_ok.mp h)
  obtain rfl := Option.some.inj (hset.entry.symm.trans he')
  obtain ⟨id, hid, haddress⟩ := hset.resolver
  simp only [Registry.callResolver, hid, bind_eq_ok, invoke_eq_ok] at hcall
  obtain ⟨resolver, hresolver, hclear⟩ := hcall
  obtain rfl := Option.some.inj (hresolver.symm.trans haddress)
  simp only [theResolver, if_true] at hclear
  obtain ⟨r, hr, rfl⟩ := Option.map_eq_some_iff.mp hclear
  have hcleared := toOption_eq_some.mp hr
  simp only [Resolver.clearReverseRecord, bind_eq_ok, pure_eq_ok] at hcleared
  obtain ⟨_, _, _, _, rfl⟩ := hcleared
  exact callNft_resolver hnft

/-- **Which way cleans**: after a transfer nothing is left, after `update_owner` what was there before. -/
theorem cleaned_iff (path : Path) (hset : ResolverSet out d s name e)
    (h : step out d s ⟨env, .registry (path.call name newOwner)⟩ = .ok s') :
    Cleaned s'.resolver name e.owner ↔ path.isTransfer = true ∨ Cleaned s.resolver name e.owner := by
  cases path with
  | transfer caller nowUnix =>
      rw [transfer_resolver hset h]
      exact iff_of_true (cleaned_cleanup s.resolver name e.owner) (Or.inl rfl)
  | updateOwner caller =>
      rw [(step_updateOwner h).2]
      exact (or_iff_right Bool.false_ne_true).symm

/-- **Ownership changes**, from every state of the two contracts and whatever the world does: after a transfer no mapping
    is left from the previous owner's address to the name, after `update_owner` those that were there before; and two
    changes to one new owner, on the same way or not, leave the same registry. -/
theorem ownership_changes (out : Outside ω) (d : Deployment) (s : State ω) (name : Bytes) (newOwner : Address) :
    (∀ (path : Path) env e s', ResolverSet out d s name e →
      step out d s ⟨env, .registry (path.call name newOwner)⟩ = .ok s' →
      (Cleaned s'.resolver name e.owner ↔ path.isTransfer = true ∨ Cleaned s.resolver name e.owner)) ∧
    ∀ (path₁ path₂ : Path) env₁ env₂ s₁ s₂,
      step out d s ⟨env₁, .registry (path₁.call name newOwner)⟩ = .ok s₁ →
      step out d s ⟨env₂, .registry (path₂.call name newOwner)⟩ = .ok s₂ →
      s₁.registry.entry = s₂.registry.entry ∧ s₁.registry.ownerNames = s₂.registry.ownerNames := by
  constructor
  · intro path env e s' hset h
    exact cleaned_iff path hset h
  · intro path₁ path₂ env₁ env₂ s₁ s₂ h₁ h₂
    rw [same_registry h₁ h₂]
    exact ⟨rfl, rfl⟩

/-! ## A name sold as a token -/

namespace TokenSale

open Cast

/-- Addresses are read from their text; the NFT contract takes every call. -/
def tokensOutside : Outside Unit where
  addressFromString  := fun id => some ⟨id⟩
  nft                := fun _ _ _ w => some w
  clearReverseRecord := fun _ _ _ _ _ => none
  maxDepth           := fun _ _ => none

/-- Alice registers a name, chooses the resolver and links the name to her address; then the NFT contract is set. -/
def listing : List (Tx Call) :=
  [⟨⟨1000, [], none⟩, .registry (.initializeContract admin)⟩,
    ⟨⟨1000, [alice], none⟩, .registry (.register aliceXlm alice none none 1000 31537000 34129000)⟩,
    ⟨⟨1100, [alice], none⟩, .registry (.setResolver aliceXlm alice (some contracts.resolver.strkey) 1100)⟩,
    ⟨⟨1200, [alice], none⟩, .resolver (.setRecord aliceXlm alice alice.strkey 1200)⟩,
    ⟨⟨1500, [admin], none⟩, .registry (.setNftContract nft)⟩]

/-- The NFT contract passes a sale to Bob on. -/
def tokenSold : Tx Call := ⟨⟨2000, [nft], none⟩, .registry ((Path.updateOwner nft).call aliceXlm bob)⟩

/-- **`update_owner` leaves the seller's reverse mapping**: Alice's address still leads to the name that is Bob's. -/
theorem seller_still_mapped :
    LedgerOrder (listing ++ [tokenSold]) ∧
      ∃ e s', ResolverSet tokensOutside contracts (run (step tokensOutside contracts) (deployed contracts admin ()) listing)
          aliceXlm e ∧
        step tokensOutside contracts (run (step tokensOutside contracts) (deployed contracts admin ()) listing) tokenSold
          = .ok s' ∧
        ¬ Cleaned s'.resolver aliceXlm e.owner := by
  refine ⟨by decide, ?_⟩
  generalize hs : run (step tokensOutside contracts) (deployed contracts admin ()) listing = s
  have hentry : (s.registry.entry aliceXlm).map (fun e => (e.owner, e.resolver))
      = some (alice, some contracts.resolver.strkey) := by
    rw [← hs]; decide +kernel
  have hmapped : (step tokensOutside contracts s tokenSold).toOption.map (fun s' => s'.resolver.reverse alice.strkey)
      = some (some aliceXlm) := by
    rw [← hs]; decide +kernel
  obtain ⟨e, he, hpair⟩ := Option.map_eq_some_iff.mp hentry
  obtain ⟨howner, hresolver⟩ := Prod.mk.inj hpair
  obtain ⟨s', hok, hreverse⟩ := Option.map_eq_some_iff.mp hmapped
  refine ⟨e, s', ⟨he, _, hresolver, rfl⟩, toOption_eq_some.mp hok, ?_⟩
  intro hcleaned
  rw [howner] at hcleaned
  exact hcleaned.reverse hreverse

end TokenSale

end XlmNs.RegistryResolver
