import XlmNs.System.RegistryNft

/-!
# `System.TokenAgreement` — one token for each entry

Linked before the first registration, the registry and the NFT contract should always agree (`Agrees`): a name has a
token iff it has an entry, of the same owner and with the same expiry. Every call of the registry does the same to
both tables of tenures. A token that moves in the NFT contract stays moved there: the NFT contract tells its own
registry link, which is either unset or cannot be reached with the arguments it sends.

`token_agreement_iff`: the two agree throughout a run iff no accepted call moves, mints or burns a token in the NFT
contract alone, and none changes an entry while the registry is not linked to it (`KeepsAgreement`).
-/

namespace XlmNs.RegistryNft

open Soroban

variable {ω : Type} {out : Outside ω} {d : Deployment} {env : Env} {s s' : State ω}

/-! ## The property -/

/-- **Registry–NFT agreement.** -/
structure Agrees (s : State ω) : Prop where
  exists_iff : ∀ n, (∃ record, s.nft.token n = some record) ↔ ∃ e, s.registry.entry n = some e
  same : ∀ n record e, s.nft.token n = some record → s.registry.entry n = some e →
    record.owner = e.owner ∧ record.expiresAt = e.expiresAt

theorem agrees_iff : Agrees s ↔ Registry.tenure s.registry = Nft.tenure s.nft := by
  have hexists : ∀ n, ((∃ record, s.nft.token n = some record) ↔ ∃ e, s.registry.entry n = some e) ↔
      (Nft.tenure s.nft n = none ↔ Registry.tenure s.registry n = none) := by
    intro n
    rw [← Option.ne_none_iff_exists', ← Option.ne_none_iff_exists', not_iff_not, Nft.tenure_eq_none,
      Registry.tenure_eq_none]
  constructor
  · intro h
    funext n
    cases he : s.registry.entry n with
    | none =>
        have hnone := Registry.tenure_eq_none.mpr he
        rw [hnone, ((hexists n).mp (h.exists_iff n)).mpr hnone]
    | some e =>
        obtain ⟨record, hrecord⟩ := (h.exists_iff n).mpr ⟨e, he⟩
        obtain ⟨howner, hexpiry⟩ := h.same n record e hrecord he
        rw [Registry.tenure_eq he, Nft.tenure_eq hrecord, howner, hexpiry]
  · intro h
    constructor
    · intro n
      rw [hexists, h]
    · intro n record e hrecord he
      have hn := congrFun h n
      rw [Registry.tenure_eq he, Nft.tenure_eq hrecord] at hn
      obtain ⟨howner, hexpiry⟩ := Prod.mk.inj (Option.some.inj hn)
      exact ⟨howner.symm, hexpiry.symm⟩

/-- The two contracts agree after a transaction. -/
def AgreesAfter (out : Outside ω) (d : Deployment) (s : State ω) (t : Tx Call) : Prop :=
  Agrees (exec (step out d) s t)

/-! ## What keeps the agreement -/

/-- What a registry call needs: it is passed on to the NFT contract, or changes nothing that a token shows. Nobody is
    told of an `update_owner`. -/
def RegistryKeeps (d : Deployment) (g : Registry.State) : Registry.Call → Prop
  | .register name owner _ _ _ expiresAt _ =>
      g.nftContract = some d.nft ∨ Registry.tenure g name = some (owner, expiresAt)
  | .transfer name _ newOwner _ =>
      g.nftContract = some d.nft ∨ ∀ held, Registry.tenure g name = some held → held.1 = newOwner
  | .renew name _ expiresAt _ _ =>
      g.nftContract = some d.nft ∨ ∀ held, Registry.tenure g name = some held → held.2 = expiresAt
  | .burn _ _ _ => g.nftContract = some d.nft
  | .updateOwner name _ newOwner => ∀ held, Registry.tenure g name = some held → held.1 = newOwner
  | _ => True

/-- What a call to the NFT contract itself needs: it changes nothing that an entry shows. -/
def NftKeeps (n : Nft.State) : Nft.Call → Prop
  | .mint .. => False
  | .burn .. => False
  | .transfer tokenId _ newOwner => ∀ held, Nft.tenure n tokenId = some held → held.1 = newOwner
  | .transferFrom _ _ recipient tokenId => ∀ held, Nft.tenure n tokenId = some held → held.1 = recipient
  | .syncOwner tokenId newOwner => ∀ held, Nft.tenure n tokenId = some held → held.1 = newOwner
  | .syncExpiry tokenId newExpiry => ∀ held, Nft.tenure n tokenId = some held → held.2 = newExpiry
  | _ => True

/-- What a call needs to keep the agreement. -/
def Keeps (d : Deployment) (s : State ω) : Call → Prop
  | .registry c => RegistryKeeps d s.registry c
  | .nft c      => NftKeeps s.nft c

/-- **No accepted call changes a tenure in one of the two contracts only.** -/
def KeepsAgreement (out : Outside ω) (d : Deployment) (s : State ω) (t : Tx Call) : Prop :=
  (∃ s', step out d s t = .ok s') → Keeps d s t.call

/-! ## A registry call passed on -/

/-- Nested calls do to the tokens what they say. -/
theorem callsNft_tenure {calls : List Registry.NftCall} {nw nw' : Nft.State × ω}
    (h : Registry.callsNft (theNft out d) env d.nft calls nw = some nw') :
    Nft.tenure nw'.1 = calls.foldl (fun m call => (entrypoint call).tenures m) (Nft.tenure nw.1) := by
  induction calls generalizing nw with
  | nil =>
      obtain rfl := Option.some.inj h
      rfl
  | cons call calls ih =>
      -- the first call is a step of the NFT contract, the rest go on from there
      have hsplit : Registry.callsNft (theNft out d) env d.nft ([call] ++ calls) nw = some nw' := h
      obtain ⟨nw₁, hcall, hcalls⟩ := Registry.callsNft_append_eq_some.mp hsplit
      rw [Registry.callsNft_one] at hcall
      have heffect := (Nft.step_effect (theNft_eq_some.mp hcall)).tenure
      rw [ih hcalls, heffect]
      rfl

/-- **What is passed on does to the tokens what the registry did to the entries.** -/
theorem nested_tenures {c : Registry.Call} (hc : c.isPassedOn = true) (g : Registry.State)
    (m : Bytes → Option (Address × UInt64)) :
    (c.nested g).foldl (fun m call => (entrypoint call).tenures m) m = c.tenures m := by
  cases c with
  | register name owner targetAddress metadataUri nowUnix expiresAt gracePeriodEndsAt =>
      cases he : g.entry name with
      | none =>
          rw [Registry.Call.nested, Registry.releaseCalls_of_none he]
          rfl
      | some e =>
          rw [Registry.Call.nested, Registry.releaseCalls_of_some he]
          exact Function.update_idem (β := fun _ => Option (Address × UInt64)) none (some (owner, expiresAt)) m
  | transfer | renew | burn => rfl
  | _ => cases hc

/-- Linked, the registry passes on to the tokens what it does to the entries. -/
theorem nft_tenure_of_linked {c : Registry.Call} (hlink : s.registry.nftContract = some d.nft)
    (hc : c.isPassedOn = true) (h : step out d s ⟨env, .registry c⟩ = .ok s') :
    Nft.tenure s'.nft = c.tenures (Nft.tenure s.nft) := by
  obtain ⟨g, ⟨n, w⟩, halone, _, hcalls⟩ :=
    (Registry.step_linked_iff hlink hc).mp (step_registry_eq_ok.mp h)
  have hnone : (Registry.unlinked s.registry).nftContract ≠ some d.nft := (Option.some_ne_none _).symm
  have hn : n = s.nft := nft_of_unlinked hnone halone
  rw [callsNft_tenure hcalls, nested_tenures hc, hn]

/-- Not linked, or not passed on, the tokens stay. -/
theorem nft_of_notPassedOn {c : Registry.Call}
    (hc : ¬ (s.registry.nftContract = some d.nft ∧ c.isPassedOn = true))
    (h : step out d s ⟨env, .registry c⟩ = .ok s') : s'.nft = s.nft := by
  have hstep := step_registry_eq_ok.mp h
  by_cases hpassed : c.isPassedOn = true
  · exact nft_of_unlinked (fun hlink => hc ⟨hlink, hpassed⟩) hstep
  · exact congrArg Prod.fst (Registry.world_of_notPassedOn (Bool.eq_false_iff.mpr hpassed) hstep)

/-! ## One step -/

/-- A tenure gets a new owner: the table stays the same iff it is the owner it had. -/
theorem assign_iff {m : Bytes → Option (Address × UInt64)} {n : Bytes} {newOwner : Address} :
    Function.update m n ((m n).map (fun held => (newOwner, held.2))) = m ↔
      ∀ held, m n = some held → held.1 = newOwner := by
  rw [Store.update_map_eq_self_iff]
  refine forall₂_congr (fun held _ => ?_)
  rw [Prod.ext_iff]
  exact (and_iff_left rfl).trans eq_comm

theorem extend_iff {m : Bytes → Option (Address × UInt64)} {n : Bytes} {expiresAt : UInt64} :
    Function.update m n ((m n).map (fun held => (held.1, expiresAt))) = m ↔
      ∀ held, m n = some held → held.2 = expiresAt := by
  rw [Store.update_map_eq_self_iff]
  refine forall₂_congr (fun held _ => ?_)
  rw [Prod.ext_iff]
  exact (and_iff_right rfl).trans eq_comm

/-- A call that is passed on needs nothing else. -/
theorem keeps_of_linked {c : Registry.Call} {g : Registry.State} (hlink : g.nftContract = some d.nft)
    (hc : c.isPassedOn = true) : RegistryKeeps d g c := by
  cases c with
  | register | transfer | renew => exact Or.inl hlink
  | burn => exact hlink
  | _ => cases hc

/-- A registry call nobody is told of changes no tenure iff it keeps the agreement. -/
theorem tenures_eq_self_iff {c : Registry.Call} {g g' : Registry.State}
    (hc : ¬ (g.nftContract = some d.nft ∧ c.isPassedOn = true)) (h : Registry.Change env g g' c) :
    c.tenures (Registry.tenure g) = Registry.tenure g ↔ RegistryKeeps d g c := by
  have hunlinked : c.isPassedOn = true → ¬ g.nftContract = some d.nft := fun hpassed hlink => hc ⟨hlink, hpassed⟩
  cases c with
  | register name owner targetAddress metadataUri nowUnix expiresAt gracePeriodEndsAt =>
      show Function.update (Registry.tenure g) name (some (owner, expiresAt)) = Registry.tenure g ↔ _
      rw [Function.update_eq_self_iff]
      exact eq_comm.trans (or_iff_right (hunlinked rfl)).symm
  | transfer name caller newOwner nowUnix =>
      exact assign_iff.trans (or_iff_right (hunlinked rfl)).symm
  | renew name caller expiresAt gracePeriodEndsAt nowUnix =>
      exact extend_iff.trans (or_iff_right (hunlinked rfl)).symm
  | burn name caller nowUnix =>
      cases h with
      | frame hquiet _ _ => cases hquiet
      | rewrite hquiet _ _ _ _ _ _ _ _ _ => cases hquiet
      | move _ _ hcall _ _ => rcases hcall with ⟨_, hcall⟩ | ⟨_, hcall⟩ <;> cases hcall
      | burn he _ _ _ _ =>
          -- an entry goes, and its token stays
          refine iff_of_false ?_ (hunlinked rfl)
          intro hsame
          have hnone := congrFun hsame name
          rw [Registry.Call.tenures, Function.update_self, Registry.tenure_eq he] at hnone
          cases hnone
  | updateOwner name caller newOwner => exact assign_iff
  | _ => exact iff_of_true rfl trivial

/-- A call to the NFT contract changes no tenure iff it keeps the agreement. -/
theorem nft_tenures_eq_self_iff {c : Nft.Call} {n n' : Nft.State} (h : Nft.Effect env n n' c) :
    c.tenures (Nft.tenure n) = Nft.tenure n ↔ NftKeeps n c := by
  cases c with
  | mint tokenId owner metadataUri expiresAt =>
      cases h with
      | frame hframe _ _ _ => cases hframe
      | edit _ hedit _ _ _ => cases hedit
      | move _ hmove _ _ _ => cases hmove
      | mint _ hnone _ _ _ =>
          -- a token appears where there was none
          refine iff_of_false ?_ id
          intro hsame
          have hfound := congrFun hsame tokenId
          rw [Nft.Call.tenures, Function.update_self, Nft.tenure_eq_none.mpr hnone] at hfound
          cases hfound
  | burn tokenId =>
      cases h with
      | frame hframe _ _ _ => cases hframe
      | edit _ hedit _ _ _ => cases hedit
      | move _ hmove _ _ _ => cases hmove
      | burn _ hrecord _ _ _ =>
          refine iff_of_false ?_ id
          intro hsame
          have hnone := congrFun hsame tokenId
          rw [Nft.Call.tenures, Function.update_self, Nft.tenure_eq hrecord] at hnone
          cases hnone
  | transfer tokenId caller newOwner => exact assign_iff
  | transferFrom spender owner recipient tokenId => exact assign_iff
  | syncOwner tokenId newOwner => exact assign_iff
  | syncExpiry tokenId newExpiry => exact extend_iff
  | _ => exact iff_of_true rfl trivial

/-- **One committed transaction, exactly.** -/
theorem agrees_step_iff {c : Call} (hagree : Agrees s) (h : step out d s ⟨env, c⟩ = .ok s') :
    Agrees s' ↔ Keeps d s c := by
  have htenure := agrees_iff.mp hagree
  rw [agrees_iff]
  cases c with
  | registry c =>
      have hchange := Registry.step_change (step_registry_eq_ok.mp h)
      rw [hchange.tenure]
      by_cases hc : s.registry.nftContract = some d.nft ∧ c.isPassedOn = true
      · -- both tables take the same write
        rw [nft_tenure_of_linked hc.1 hc.2 h, htenure]
        exact iff_of_true rfl (keeps_of_linked hc.1 hc.2)
      · -- only the registry's table takes it
        rw [nft_of_notPassedOn hc h, ← htenure]
        exact tenures_eq_self_iff hc hchange
  | nft c =>
      have heffect := Nft.step_effect (step_nft_eq_ok.mp h)
      rw [registry_of_nft h, heffect.tenure, htenure]
      exact eq_comm.trans (nft_tenures_eq_self_iff heffect)

theorem agreesAfter_iff {t : Tx Call} (hagree : Agrees s) :
    AgreesAfter out d s t ↔ KeepsAgreement out d s t := by
  apply exec_iff hagree
  intro s' hok
  exact agrees_step_iff hagree hok

/-! ## Whole runs -/

theorem agrees_deployed (d : Deployment) (admin : Address) (nftContract link : Option Address) (w : ω) :
    Agrees (deployed d admin nftContract link w) := agrees_iff.mpr rfl

/-- **Linked from the start, the registry and the NFT contract agree throughout a run iff no accepted call changes a
    tenure in one of the two contracts only.** Anyone may call either contract, in any order and at any ledger times;
    the NFT contract's own registry link may be set or not. -/
theorem token_agreement_iff (out : Outside ω) (d : Deployment) (admin : Address) (link : Option Address) (w : ω)
    (ts : List (Tx Call)) :
    Along (step out d) (AgreesAfter out d) (deployed d admin (some d.nft) link w) ts ↔
      Along (step out d) (KeepsAgreement out d) (deployed d admin (some d.nft) link w) ts := by
  refine along_iff (I := Agrees) (P := AgreesAfter out d) (Q := KeepsAgreement out d) ?_ ?_
    (agrees_deployed d admin (some d.nft) link w)
  · intro s t hagree
    exact agreesAfter_iff hagree
  · intro s t _ hafter
    exact hafter

/-! ## A token sold in the NFT contract -/

namespace SoldToken

open Cast

/-- **Agreement fails on the code**: linked from the start and with no registry link in the NFT contract, Alice's
    token is Bob's after the sale and her entry is still hers. -/
theorem sold_token_leaves_entry :
    LedgerOrder [aliceBuys, aliceSells] ∧
      ¬ Along (step nothingOutside contracts) (AgreesAfter nothingOutside contracts)
        (deployed contracts admin (some contracts.nft) none ()) [aliceBuys, aliceSells] := by
  refine ⟨by decide, fun h => ?_⟩
  obtain ⟨_, hsell, _⟩ := h
  unfold AgreesAfter at hsell
  generalize hs : exec (step nothingOutside contracts) (exec (step nothingOutside contracts)
    (deployed contracts admin (some contracts.nft) none ()) aliceBuys) aliceSells = s at hsell
  have htoken : Nft.tenure s.nft aliceXlm = some (bob, 31537000) := by
    rw [← hs]; decide +kernel
  have hentry : Registry.tenure s.registry aliceXlm = some (alice, 31537000) := by
    rw [← hs]; decide +kernel
  rw [agrees_iff.mp hsell, htoken] at hentry
  exact absurd (Prod.mk.inj (Option.some.inj hentry)).1 (by decide)

end SoldToken

end XlmNs.RegistryNft
