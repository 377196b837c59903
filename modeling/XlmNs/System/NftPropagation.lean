import XlmNs.System.RegistryNft

/-!
# `System.NftPropagation` — a token transfer that never arrives

With the registry and the NFT contract linked to each other, a holder's transfer of a token should move the name in
the registry too (`Propagates`). It never does: the NFT contract calls `update_owner` with the name and the new owner,
the registry's `update_owner` takes a caller between the two, and the trap rolls the transfer back.

`transfer_never_propagates` proves it of every state. `updateOwner_with_caller` says that the argument list is all
that is wrong: with the caller in it, the registry would have moved the name.
-/

namespace XlmNs.RegistryNft

open Soroban

variable {ω : Type} {out : Outside ω} {d : Deployment} {env : Env} {s s' : State ω}
variable {t : Tx Call} {name : Bytes} {newOwner : Address}

/-! ## The property -/

/-- A holder's transfer of a token: by its owner or the approved address, or by the approved spender. -/
inductive HolderMove (n : Nft.State) : Nft.Call → Bytes → Address → Prop
  | transfer {tokenId : Bytes} {caller newOwner : Address} {record : Nft.TokenRecord}
      (hrecord : n.token tokenId = some record)
      (hcaller : record.owner = caller ∨ record.approved = some caller) :
      HolderMove n (.transfer tokenId caller newOwner) tokenId newOwner
  | transferFrom {spender owner recipient : Address} {tokenId : Bytes} {record : Nft.TokenRecord}
      (hrecord : n.token tokenId = some record) (howner : record.owner = owner)
      (hspender : record.approved = some spender) :
      HolderMove n (.transferFrom spender owner recipient tokenId) tokenId recipient

/-- The contracts are linked to each other, and a holder moves the token of a name that is Active at the ledger time
    and unlocked. -/
structure Eligible (d : Deployment) (s : State ω) (t : Tx Call) (name : Bytes) (newOwner : Address) : Prop where
  linked   : s.registry.nftContract = some d.nft
  linkBack : s.nft.registry = some d.registry
  moves    : ∃ c, t.call = .nft c ∧ HolderMove s.nft c name newOwner
  active   : ∃ e, s.registry.entry name = some e ∧ e.isActiveAt t.env.timestamp
  unlocked : Registry.UnlockedAt s.registry name t.env.timestamp

/-- The entry, the registry's owner index and the token name the new owner. -/
structure Moved (s : State ω) (name : Bytes) (newOwner : Address) : Prop where
  entry : ∃ e, s.registry.entry name = some e ∧ e.owner = newOwner
  index : ∀ owner, name ∈ Registry.namesForOwner s.registry owner ↔ owner = newOwner
  token : ∃ record, s.nft.token name = some record ∧ record.owner = newOwner

/-- **Propagation**: the transfer goes through and moves the name in both contracts. -/
def Propagates (out : Outside ω) (d : Deployment) (s : State ω) (t : Tx Call) (name : Bytes)
    (newOwner : Address) : Prop :=
  ∃ s', step out d s t = .ok s' ∧ Moved s' name newOwner

/-! ## It never happens -/

/-- Linked to the registry, the NFT contract passes nothing on. -/
theorem passOn_traps {n : Nft.State} {gw gw' : Registry.State × ω} {self : Address} {tokenId : Bytes}
    (hlink : n.registry = some d.registry) :
    ¬ Nft.passOn (theRegistry out d) self env n gw tokenId newOwner = .ok gw' := by
  intro h
  unfold Nft.passOn at h
  rw [hlink] at h
  have hcall := invoke_eq_ok.mp h
  simp only [theRegistry, if_true, invokeUpdateOwner_passedOn, Option.map_none] at hcall
  cases hcall

/-- Linked to the registry, no holder's transfer goes through. -/
theorem holderMove_rolls_back {c : Nft.Call} (hlink : s.nft.registry = some d.registry)
    (hmoves : HolderMove s.nft c name newOwner) : ¬ ∃ s', step out d s ⟨env, .nft c⟩ = .ok s' := by
  have hmoved : ∀ record newOwner, (Nft.moveToken s.nft name record newOwner).registry = some d.registry :=
    fun _ _ => (Nft.reindexOwnerToken_settings _ _ _ _).2.2.trans hlink
  rintro ⟨s', h⟩
  have hstep := step_nft_eq_ok.mp h
  cases hmoves with
  | transfer _ _ =>
      simp only [Nft.step, Nft.transfer, bind_eq_ok] at hstep
      obtain ⟨record, _, _, _, gw, hpass, _⟩ := hstep
      exact passOn_traps (hmoved record newOwner) hpass
  | transferFrom _ _ _ =>
      simp only [Nft.step, Nft.transferFrom, bind_eq_ok] at hstep
      obtain ⟨record, _, _, _, gw, hpass, _⟩ := hstep
      exact passOn_traps (hmoved record newOwner) hpass

/-- With the caller in its argument list, the call would have moved the name. -/
theorem updateOwner_with_caller (h : Eligible d s t name newOwner) :
    ∃ g, invokeUpdateOwner (t.env.callFrom d.nft) s.registry
        [.string name, .address d.nft, .address newOwner] = some g ∧
      ∃ e, g.entry name = some e ∧ e.owner = newOwner := by
  obtain ⟨e, he, hactive⟩ := h.active
  have hcall : Registry.updateOwner (t.env.callFrom d.nft) s.registry name d.nft newOwner =
      .ok (Registry.moveName (Registry.removeLock s.registry name) name e newOwner) :=
    Registry.updateOwner_eq_ok.mpr ⟨h.linked, Or.inr rfl, h.unlocked, e, he, hactive, rfl⟩
  refine ⟨_, toOption_eq_some.mpr hcall,
    { e with owner := newOwner, transferCount := saturatingAdd32 e.transferCount 1 }, ?_, rfl⟩
  exact Store.set_self _ _ _

/-- **No eligible transfer propagates**, whatever the state. -/
theorem transfer_never_propagates (h : Eligible d s t name newOwner) :
    ¬ Propagates out d s t name newOwner := by
  obtain ⟨env, call⟩ := t
  obtain ⟨c, hcall, hmoves⟩ := h.moves
  obtain rfl : call = .nft c := hcall
  rintro ⟨s', hs', _⟩
  exact holderMove_rolls_back h.linkBack hmoves ⟨s', hs'⟩

/-! ## A sale that rolls back -/

namespace StuckSale

open Cast

/-- Alice registers before the registry knows of the NFT contract, and her token is minted afterwards. -/
def setUp : List (Tx Call) :=
  [⟨⟨500, [deployer], none⟩, .nft (.initializeContract deployer)⟩,
   ⟨⟨500, [deployer], none⟩, .nft (.setRegistry deployer contracts.registry)⟩,
   ⟨⟨500, [admin], none⟩, .registry (.initializeContract admin)⟩,
   aliceBuys,
   ⟨⟨1500, [deployer], none⟩, .nft (.mint aliceXlm alice none 31537000)⟩,
   ⟨⟨1500, [admin], none⟩, .registry (.setNftContract contracts.nft)⟩]

/-- The state Alice sells in. -/
def ready : State Unit := run (step nothingOutside contracts) (uninitialised ()) setUp

theorem sell_eligible : Eligible contracts ready aliceSells aliceXlm bob where
  linked   := by decide +kernel
  linkBack := by decide +kernel
  moves    := by
    have hrecord : ready.nft.token aliceXlm = some ⟨alice, none, none, 31537000⟩ := by decide +kernel
    exact ⟨_, rfl, .transfer hrecord (Or.inl rfl)⟩
  active   := ⟨Registry.freshEntry aliceXlm alice none none 1000 31537000 34129000, by decide +kernel, by decide⟩
  unlocked := by
    intro lock hlock
    have hnone : ready.registry.lock aliceXlm = none := by decide +kernel
    rw [hnone] at hlock
    cases hlock

/-- **Propagation fails on the code**: the two contracts linked to each other, Alice sells her token to Bob and the
    transaction is rolled back. -/
theorem sale_rolls_back :
    LedgerOrder (setUp ++ [aliceSells]) ∧ Eligible contracts ready aliceSells aliceXlm bob ∧
      ¬ Propagates nothingOutside contracts ready aliceSells aliceXlm bob := by
  refine ⟨by decide, sell_eligible, ?_⟩
  rintro ⟨s', hs', _⟩
  have hrejected : ¬ ∃ s', step nothingOutside contracts ready aliceSells = .ok s' := by
    rw [exists_eq_ok_iff]; decide +kernel
  exact hrejected ⟨s', hs'⟩

theorem sale_never_propagates : ¬ Propagates nothingOutside contracts ready aliceSells aliceXlm bob :=
  transfer_never_propagates sell_eligible

end StuckSale

end XlmNs.RegistryNft
