import XlmNs.Nft.Steps
import XlmNs.Soroban.Enumeration
import XlmNs.Soroban.Machine

/-!
# `Nft.Correctness.Enumeration` — the two token lists are exact in every reachable state

The contract lists all tokens in `TokenIds` and each owner's tokens in `OwnerTokens`, and updates both lists by hand
next to the token records. `Enumerated` is the data invariant: both lists hold exactly what the records say, each
token once. Every `Effect` keeps it by the library's rules, so it holds after every run, whatever the registry does
in between; `enumeration_exact` reads it through the contract's views.
-/

namespace XlmNs.Nft

open Soroban

variable {ω : Type} {out : Outside ω} {self : Address} {env : Env} {s s' : State}

/-- The data invariant of the token lists. -/
structure Enumerated (s : State) : Prop where
  ids    : Enumerates s.tokenIds s.token
  owners : Index.Exact s.ownerTokens s.token TokenRecord.owner

theorem enumerated_empty : Enumerated State.empty := ⟨Enumerates.empty, Index.Exact.empty _⟩

/-- Moving a token in the index follows its record, also when the owner stays. -/
theorem exact_reindexed {idx : Index Address Bytes} {m : Store Bytes TokenRecord} {tokenId : Bytes}
    {record record' : TokenRecord} (h : Index.Exact idx m TokenRecord.owner) (hrecord : m tokenId = some record) :
    Index.Exact (reindexed idx record.owner record'.owner tokenId) (m.set tokenId record')
      TokenRecord.owner := by
  unfold reindexed
  split
  · rename_i hsame
    exact h.edit hrecord hsame.symm
  · exact h.move record' hrecord

/-- **Every committed invocation keeps the lists exact.** -/
theorem Effect.enumerated {c : Call} (h : Effect env s s' c) (hs : Enumerated s) : Enumerated s' := by
  cases h with
  | frame _ htoken hids howners =>
      constructor
      · rw [htoken, hids]
        exact hs.ids
      · rw [htoken, howners]
        exact hs.owners
  | @mint tokenId owner metadataUri expiresAt _ hnone htoken hids howners =>
      constructor
      · rw [htoken, hids]
        exact hs.ids.insert _ hnone
      · rw [htoken, howners]
        exact hs.owners.insert (freshToken owner metadataUri expiresAt) hnone
  | edit hrecord hedit htoken hids howners =>
      constructor
      · rw [htoken, hids]
        exact hs.ids.edit _ hrecord
      · rw [htoken, howners]
        apply hs.owners.edit hrecord
        -- no edit in place is about the owner
        cases hedit with
        | approve | approveClear | syncExpiry => rfl
  | move hrecord _ htoken hids howners =>
      constructor
      · rw [htoken, hids]
        exact hs.ids.edit _ hrecord
      · rw [htoken, howners]
        exact exact_reindexed hs.owners hrecord
  | burn _ hrecord htoken hids howners =>
      constructor
      · rw [htoken, hids]
        exact hs.ids.remove _
      · rw [htoken, howners]
        exact hs.owners.remove hrecord

theorem preserves_enumerated (out : Outside ω) (self : Address) :
    Preserves (step out self) (fun sw => Enumerated sw.1) := by
  intro sw t sw' h hstep
  exact (step_effect hstep).enumerated h

/-- Every position of an owner's list holds a token of that owner. -/
theorem Enumerated.get_owned (h : Enumerated s) {owner : Address} {i : Nat} (hi : i < balanceOf s owner) :
    ∃ tokenId record, tokenOfOwnerByIndex s owner i = some tokenId ∧ s.token tokenId = some record ∧
      record.owner = owner := by
  have hget : tokenOfOwnerByIndex s owner i = some (s.ownerTokens.keys owner)[i] :=
    List.getElem?_eq_getElem hi
  obtain ⟨record, hrecord, howner⟩ := (h.owners.mem_iff owner _).mp (List.getElem_mem hi)
  exact ⟨_, record, hget, hrecord, howner⟩

/-- **The token enumeration is exact in every reachable state.** After any sequence of invocations, by anyone,
    `TokenIds` lists each existing token once and each owner's list each of that owner's tokens once; the balances
    add up to the total supply, and every index below a length resolves to a token. -/
theorem enumeration_exact (out : Outside ω) (self : Address) (w : ω) (ts : List (Tx Call)) :
    let s := (run (step out self) (State.empty, w) ts).1
    (s.tokenIds.Nodup ∧ ∀ tokenId, tokenId ∈ s.tokenIds ↔ ∃ record, s.token tokenId = some record) ∧
    (∀ owner, (s.ownerTokens.keys owner).Nodup ∧ ∀ tokenId,
      tokenId ∈ s.ownerTokens.keys owner ↔ ∃ record, s.token tokenId = some record ∧ record.owner = owner) ∧
    (∀ owners : Finset Address, (∀ tokenId record, s.token tokenId = some record → record.owner ∈ owners) →
      totalSupply s = ∑ owner ∈ owners, balanceOf s owner) ∧
    (∀ i, i < totalSupply s → ∃ tokenId record, tokenByIndex s i = some tokenId ∧
      s.token tokenId = some record) ∧
    ∀ owner i, i < balanceOf s owner → ∃ tokenId record, tokenOfOwnerByIndex s owner i = some tokenId ∧
      s.token tokenId = some record ∧ record.owner = owner := by
  intro s
  have h : Enumerated s := (preserves_enumerated out self).run ts enumerated_empty
  refine ⟨⟨h.ids.nodup, h.ids.mem_iff⟩, fun owner => ⟨h.owners.nodup owner, h.owners.mem_iff owner⟩, ?_, ?_, ?_⟩
  · intro owners hcover
    exact h.ids.length_eq_sum h.owners hcover
  · intro i hi
    exact h.ids.get hi
  · intro owner i hi
    exact h.get_owned hi

end XlmNs.Nft
