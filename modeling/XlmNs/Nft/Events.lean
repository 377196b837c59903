import XlmNs.Common.Upgrade
import XlmNs.Nft.Steps
import XlmNs.Soroban.EventLog

/-!
# `Nft.Events` — what the NFT contract publishes (`contracts/nft/src/events.rs`)

`events s t` is what the invocation `t` publishes if it commits in `s`, topics and data as the source passes them: the
first topic of `mint`, named `admin`, is given the owner, and the one of `burn`, named `owner`, the admin.
`sync_expiry`, `refresh_name_data` and the configuration publish nothing.

`Portfolio` is the picture an indexer keeps by applying the events.
-/

namespace XlmNs.Nft

open Soroban

/-- What the NFT contract publishes. -/
inductive Event
  | upgraded (currentVersion targetVersion : UInt32) (admin : Address)
  | mint (admin recipient : Address) (tokenId : Bytes)
  | approve (owner spender : Address) (tokenId : Bytes)
  | approveClear (owner : Address) (tokenId : Bytes)
  | transfer (sender recipient : Address) (tokenId : Bytes)
  | burn (owner : Address) (tokenId : Bytes)
deriving DecidableEq, Repr

/-- `events::transfer(env, previous_owner, new_owner, token_id)`, the previous owner read from the token. -/
def transferred (s : State) (tokenId : Bytes) (newOwner : Address) : List Event :=
  match s.token tokenId with
  | some record => [.transfer record.owner newOwner tokenId]
  | none        => []

/-- What an invocation publishes if it commits. -/
def events (s : State) (t : Tx Call) : List Event :=
  match t.call with
  | .upgrade migrationData =>
      match s.admin with
      | some admin => [.upgraded (getVersion s.contractVersion) (decodeTargetVersion migrationData) admin]
      | none       => []
  | .mint tokenId owner _ _                => [.mint owner owner tokenId]
  | .approve tokenId caller approved       => [.approve caller approved tokenId]
  | .approveClear tokenId caller           => [.approveClear caller tokenId]
  | .transfer tokenId _ newOwner           => transferred s tokenId newOwner
  | .transferFrom _ owner recipient tokenId => [.transfer owner recipient tokenId]
  | .burn tokenId =>
      match s.admin with
      | some admin => [.burn admin tokenId]
      | none       => []
  | .syncOwner tokenId newOwner            => transferred s tokenId newOwner
  | .initializeContract .. | .setRegistry .. | .refreshNameData .. | .syncExpiry .. => []

/-- The log of a run. -/
def eventLog {ω : Type} (out : Outside ω) (self : Address) (sw : State × ω) (ts : List (Tx Call)) : List Event :=
  published (step out self) (fun sw t => events sw.1 t) sw ts

/-! ## An indexer -/

/-- The owners of the tokens and the two enumerations. -/
structure Portfolio where
  owners      : Store Bytes Address
  tokenIds    : List Bytes
  ownerTokens : Index Address Bytes

/-- Apply an event. Burning names no owner: it is the one the picture has. -/
def Portfolio.apply (p : Portfolio) : Event → Portfolio
  | .mint _ recipient tokenId =>
      { owners      := p.owners.set tokenId recipient
        tokenIds    := p.tokenIds ++ [tokenId]
        ownerTokens := p.ownerTokens.push recipient tokenId }
  | .transfer sender recipient tokenId =>
      { p with
        owners      := p.owners.set tokenId recipient
        ownerTokens := reindexed p.ownerTokens sender recipient tokenId }
  | .burn _ tokenId =>
      match p.owners tokenId with
      | some owner =>
          { owners      := p.owners.remove tokenId
            tokenIds    := p.tokenIds.erase tokenId
            ownerTokens := p.ownerTokens.filterOut owner tokenId }
      | none => p
  | .upgraded .. | .approve .. | .approveClear .. => p

theorem Portfolio.apply_burn {p : Portfolio} {tokenId : Bytes} {owner : Address} (h : p.owners tokenId = some owner)
    (admin : Address) :
    p.apply (.burn admin tokenId) =
      ⟨p.owners.remove tokenId, p.tokenIds.erase tokenId, p.ownerTokens.filterOut owner tokenId⟩ := by
  simp only [Portfolio.apply, h]

/-- The picture of a state. -/
def portfolio (s : State) : Portfolio := ⟨ownerOf s, s.tokenIds, s.ownerTokens⟩

/-- The approvals an indexer keeps: a token that is minted, moved or burnt has none. -/
def applyApproval (g : Store Bytes Address) : Event → Store Bytes Address
  | .approve _ spender tokenId => g.set tokenId spender
  | .mint _ _ tokenId | .approveClear _ tokenId | .transfer _ _ tokenId | .burn _ tokenId => g.remove tokenId
  | .upgraded .. => g

end XlmNs.Nft
