import XlmNs.Common.Time
import XlmNs.Soroban.Env

/-!
# `Common.Types` — the records that cross contract boundaries

`RegistryEntry` is what the registry stores and what `registry.resolve` returns to the resolver, the NFT and
the subdomain contract; `NameState` is what `registry.name_state` returns. `Cast` names the accounts, the deployed
contracts and the names that the concrete runs of this development share.
-/

namespace XlmNs

open Soroban

/-- What the registry keeps of a name. -/
structure RegistryEntry where
  name              : Bytes
  owner             : Address
  resolver          : Option Bytes
  targetAddress     : Option Bytes
  metadataUri       : Option Bytes
  ttlSeconds        : UInt64
  registeredAt      : UInt64
  expiresAt         : UInt64
  gracePeriodEndsAt : UInt64
  transferCount     : UInt32
deriving DecidableEq, Repr

/-- The entry has not expired. -/
def RegistryEntry.isActiveAt (entry : RegistryEntry) (nowUnix : UInt64) : Prop :=
  XlmNs.isActiveAt entry.expiresAt nowUnix

instance (entry : RegistryEntry) (nowUnix : UInt64) : Decidable (entry.isActiveAt nowUnix) :=
  inferInstanceAs (Decidable (XlmNs.isActiveAt _ _))

/-- The stored grace period of the entry is over. -/
def RegistryEntry.isClaimableAt (entry : RegistryEntry) (nowUnix : UInt64) : Prop :=
  XlmNs.isClaimableAt entry.gracePeriodEndsAt nowUnix

instance (entry : RegistryEntry) (nowUnix : UInt64) : Decidable (entry.isClaimableAt nowUnix) :=
  inferInstanceAs (Decidable (XlmNs.isClaimableAt _ _))

/-- Lifecycle state of a name. -/
inductive NameState
  | missing
  | active
  | gracePeriod
  | claimable
deriving DecidableEq, Repr

/-- `CONTRACT_VERSION`, the same in every contract. -/
def contractVersion : UInt32 := 1

/-- `decode_target_version`: a big-endian `u32`, or the next version when there are too few bytes. -/
def decodeTargetVersion (data : Bytes) : UInt32 :=
  match data with
  | b0 :: b1 :: b2 :: b3 :: _ =>
      UInt32.ofNat (((b0.toNat * 256 + b1.toNat) * 256 + b2.toNat) * 256 + b3.toNat)
  | _ => contractVersion + 1

namespace Cast

def alice : Address := ⟨ascii "GALICE"⟩
def bob : Address := ⟨ascii "GBOB"⟩
def mallory : Address := ⟨ascii "GMALLORY"⟩
def admin : Address := ⟨ascii "GADMIN"⟩

/-- Admin of the NFT contract, and of nothing else. -/
def deployer : Address := ⟨ascii "GDEPLOYER"⟩

def registrar : Address := ⟨ascii "CREGISTRAR"⟩
def registry : Address := ⟨ascii "CREGISTRY"⟩
def resolver : Address := ⟨ascii "CRESOLVER"⟩
def nft : Address := ⟨ascii "CNFT"⟩
def subdomain : Address := ⟨ascii "CSUBDOMAIN"⟩

/-- The auction contract. -/
def house : Address := ⟨ascii "CAUCTION"⟩
/-- The token the auctions are paid in. -/
def usdc : Address := ⟨ascii "CUSDC"⟩
/-- Where the auctions' proceeds go. -/
def treasury : Address := ⟨ascii "GTREASURY"⟩

def aliceXlm : Bytes := ascii "alice.xlm"
def bobXlm : Bytes := ascii "bob.xlm"
def payAliceXlm : Bytes := ascii "pay.alice.xlm"

/-- Alice signs at ledger time 1000. -/
def signed : Env := ⟨1000, [alice], none⟩

/-- The admin signs a call before anything else happens. -/
def byAdmin {κ : Type} (call : κ) : Tx κ := ⟨⟨0, [admin], none⟩, call⟩

end Cast

end XlmNs
