import XlmNs.System.RegistryNft

/-!
# `System.TokenReadiness` — linking the NFT contract to names that exist

The registry may be linked to the NFT contract at any time. From then on a lifecycle call that passes the registry's
own checks should not fail for the token's sake (`NeverStranded`). But each of the nested calls has a failure of its
own: burning and syncing need the token, minting needs that there is none, and a registry link in the NFT contract
sends the mint back into the registry that is calling it.

`never_stranded_iff`: no call is stranded throughout a run iff every call that passes the registry's own checks finds
the tokens as it needs them (`TokensReady`).
-/

namespace XlmNs.RegistryNft

open Soroban

variable {ω : Type} {out : Outside ω} {d : Deployment} {env : Env} {s s' : State ω}

/-! ## The property -/

/-- The call passes the registry's own checks: with no NFT contract it goes through. -/
def PassesOwnChecks (out : Outside ω) (d : Deployment) (s : State ω) (t : Tx Call) : Prop :=
  ∃ s', step out d { s with registry := Registry.unlinked s.registry } t = .ok s'

/-- **No stranded names**: linked, a lifecycle call that passes the registry's own checks goes through. -/
def NeverStranded (out : Outside ω) (d : Deployment) (s : State ω) (t : Tx Call) : Prop :=
  ∀ c, t.call = .registry c → c.isPassedOn = true → s.registry.nftContract = some d.nft →
    PassesOwnChecks out d s t → ∃ s', step out d s t = .ok s'

/-! ## What the nested calls need -/

/-- The NFT contract can cache a name's dates while the registry calls it: it has no registry link, or one to
    another registry that resolves the name. -/
def LinkAnswers (out : Outside ω) (d : Deployment) (now : UInt64) (n : Nft.State) (w : ω) (name : Bytes) : Prop :=
  ∀ registry, n.registry = some registry →
    registry ≠ d.registry ∧ ∃ entry, out.nft.registryResolve registry name now w = some entry

theorem linkAnswers_congr {now : UInt64} {n n' : Nft.State} {w : ω} {name : Bytes}
    (h : n'.registry = n.registry) : LinkAnswers out d now n' w name ↔ LinkAnswers out d now n w name := by
  unfold LinkAnswers
  rw [h]

/-- The tokens are as a lifecycle call needs them. -/
def Ready (out : Outside ω) (d : Deployment) (now : UInt64) (s : State ω) : Registry.Call → Prop
  | .register name _ _ _ _ _ _ =>
      (s.nft.token name = none ↔ s.registry.entry name = none) ∧ LinkAnswers out d now s.nft s.world name
  | .transfer name _ _ _ => s.nft.token name ≠ none
  | .renew name _ _ _ _  => s.nft.token name ≠ none
  | .burn name _ _       => s.nft.token name ≠ none
  | _                    => True

/-- **Every lifecycle call that passes the registry's own checks finds the tokens as it needs them.** -/
def TokensReady (out : Outside ω) (d : Deployment) (s : State ω) (t : Tx Call) : Prop :=
  ∀ c, t.call = .registry c → c.isPassedOn = true → s.registry.nftContract = some d.nft →
    PassesOwnChecks out d s t → Ready out d t.env.timestamp s c

/-- The registry is the admin of the NFT contract. -/
def Administered (d : Deployment) (s : State ω) : Prop := s.nft.admin = some d.registry

/-! ## The nested calls -/

theorem byAdmin_callFrom {n : Nft.State} (hadmin : n.admin = some d.registry) :
    Nft.ByAdmin (env.callFrom d.registry) n :=
  ⟨d.registry, hadmin, Or.inr rfl⟩

/-- Burning and syncing. -/
theorem target_call_iff {n : Nft.State} {w : ω} {call : Registry.NftCall} {name : Bytes}
    (hadmin : n.admin = some d.registry) (hcall : (entrypoint call).target = some name) :
    (∃ nw, (theNft out d).nft (env.callFrom d.registry) d.nft call (n, w) = some nw) ↔ n.token name ≠ none := by
  simp only [theNft_eq_some]
  rw [Nft.target_accepted_iff hcall]
  exact and_iff_right (byAdmin_callFrom hadmin)

/-- Minting. -/
theorem mint_call_iff {n : Nft.State} {w : ω} {name : Bytes} {owner : Address} {metadataUri : Option Bytes}
    {expiresAt : UInt64} (hadmin : n.admin = some d.registry) :
    (∃ nw, (theNft out d).nft (env.callFrom d.registry) d.nft (.mint name owner metadataUri expiresAt) (n, w)
        = some nw) ↔
      n.token name = none ∧ LinkAnswers out d env.timestamp n w name := by
  simp only [theNft_eq_some]
  unfold entrypoint
  rw [Nft.mint_accepted_iff, and_iff_right (byAdmin_callFrom hadmin)]
  refine and_congr_right (fun _ => forall₂_congr (fun registry _ => ?_))
  simp only [duringRegistry]
  split
  · -- the registry is running: it cannot be asked
    rename_i hself
    refine iff_of_false ?_ ?_
    · rintro ⟨_, hentry⟩
      cases hentry
    · rintro ⟨hother, _⟩
      exact hother hself
  · rename_i hother
    exact (and_iff_right hother).symm

/-- What a burn leaves for the mint that follows it. -/
theorem burn_call {n n' : Nft.State} {w w' : ω} {name : Bytes} (hadmin : n.admin = some d.registry)
    (h : (theNft out d).nft env d.nft (.burn name) (n, w) = some (n', w')) :
    n'.admin = some d.registry ∧ n'.token name = none ∧ n'.registry = n.registry ∧ w' = w := by
  have hstep := theNft_eq_some.mp h
  have hnone : Nft.tenure n' name = none := by
    rw [(Nft.step_effect hstep).tenure]
    exact Function.update_self name none (Nft.tenure n)
  have hsame : n'.registry = n.registry := by
    rcases Nft.step_config hstep with ⟨_, hcall, _⟩ | ⟨_, _, hcall, _⟩ | ⟨_, hsame⟩
    · cases hcall
    · cases hcall
    · exact hsame
  exact ⟨Nft.step_admin hstep hadmin, Nft.tenure_eq_none.mp hnone, hsame,
    Nft.target_world (c := .burn name) rfl hstep⟩

/-- **The nested calls of a lifecycle call**, made when the registry is done: they go through iff the tokens are
    ready. -/
theorem nested_iff {c : Registry.Call} {g : Registry.State} {n : Nft.State} {w : ω} (hc : c.isPassedOn = true)
    (hadmin : n.admin = some d.registry) :
    (∃ nw, Registry.callsNft (theNft out d) (env.callFrom d.registry) d.nft (c.nested g) (n, w) = some nw) ↔
      Ready out d env.timestamp ⟨g, n, w⟩ c := by
  cases c with
  | register name owner targetAddress metadataUri nowUnix expiresAt gracePeriodEndsAt =>
      simp only [Registry.Call.nested, Registry.callsNft_append_eq_some, Registry.callsNft_one]
      show _ ↔ (n.token name = none ↔ g.entry name = none) ∧ LinkAnswers out d env.timestamp n w name
      cases he : g.entry name with
      | none =>
          simp only [Registry.releaseCalls_of_none he, Registry.callsNft_nil, Option.some.injEq, exists_eq_left',
            iff_true]
          exact mint_call_iff hadmin
      | some e =>
          -- the old token is burned first: it must be there, and the mint finds none
          simp only [Registry.releaseCalls_of_some he, Registry.callsNft_one, reduceCtorEq, iff_false]
          have hburns : (∃ nw, (theNft out d).nft (env.callFrom d.registry) d.nft (.burn name) (n, w) = some nw) ↔
              n.token name ≠ none := target_call_iff hadmin rfl
          constructor
          · rintro ⟨nw, ⟨n', w'⟩, hburn, hmint⟩
            have hfound := hburns.mp ⟨(n', w'), hburn⟩
            obtain ⟨hadmin', _, hlink, rfl⟩ := burn_call hadmin hburn
            have hanswers := ((mint_call_iff hadmin').mp ⟨nw, hmint⟩).2
            exact ⟨hfound, (linkAnswers_congr hlink).mp hanswers⟩
          · rintro ⟨hfound, hanswers⟩
            obtain ⟨⟨n', w'⟩, hburn⟩ := hburns.mpr hfound
            obtain ⟨hadmin', hnone, hlink, rfl⟩ := burn_call hadmin hburn
            obtain ⟨nw, hmint⟩ := (mint_call_iff hadmin').mpr ⟨hnone, (linkAnswers_congr hlink).mpr hanswers⟩
            exact ⟨nw, _, hburn, hmint⟩
  | transfer name caller newOwner nowUnix =>
      simp only [Registry.Call.nested, Registry.callsNft_one]
      exact target_call_iff hadmin rfl
  | renew name caller expiresAt gracePeriodEndsAt nowUnix =>
      simp only [Registry.Call.nested, Registry.callsNft_one]
      exact target_call_iff hadmin rfl
  | burn name caller nowUnix =>
      simp only [Registry.Call.nested, Registry.callsNft_one]
      exact target_call_iff hadmin rfl
  | _ => cases hc

/-! ## One step -/

/-- **Past the registry's own checks, a lifecycle call goes through iff the tokens are ready.** -/
theorem accepted_iff_ready {c : Registry.Call} (hadmin : Administered d s) (hc : c.isPassedOn = true)
    (hlink : s.registry.nftContract = some d.nft) (hown : PassesOwnChecks out d s ⟨env, .registry c⟩) :
    (∃ s', step out d s ⟨env, .registry c⟩ = .ok s') ↔ Ready out d env.timestamp s c := by
  obtain ⟨s₁, hs₁⟩ := hown
  have halone := step_registry_eq_ok.mp hs₁
  have hnone : (Registry.unlinked s.registry).nftContract ≠ some d.nft := (Option.some_ne_none _).symm
  have hnft : s₁.nft = s.nft := nft_of_unlinked hnone halone
  have hcalls : (∃ s', step out d s ⟨env, .registry c⟩ = .ok s') ↔
      ∃ nw, Registry.callsNft (theNft out d) (env.callFrom d.registry) d.nft (c.nested s.registry)
        (s₁.nft, s₁.world) = some nw := by
    constructor
    · rintro ⟨s', hs'⟩
      obtain ⟨g, nw, halone', _, hcalls⟩ := (Registry.step_linked_iff hlink hc).mp (step_registry_eq_ok.mp hs')
      obtain ⟨_, rfl⟩ := Prod.mk.inj (Except.ok.inj (halone'.symm.trans halone))
      exact ⟨_, hcalls⟩
    · rintro ⟨nw, hcalls⟩
      refine ⟨⟨{ s₁.registry with nftContract := s.registry.nftContract }, nw.1, nw.2⟩, ?_⟩
      exact step_registry_eq_ok.mpr ((Registry.step_linked_iff hlink hc).mpr ⟨_, _, halone, rfl, hcalls⟩)
  rw [hcalls, hnft, nested_iff hc hadmin]
  -- only minting looks at the world, and registering leaves it alone until then
  cases c with
  | register name owner targetAddress metadataUri nowUnix expiresAt gracePeriodEndsAt =>
      obtain ⟨_, hworld⟩ := Prod.mk.inj (Registry.register_unlinked_world halone)
      rw [hworld]
  | transfer | renew | burn => exact Iff.rfl
  | _ => cases hc

/-- The registry stays the admin of the NFT contract. -/
theorem preserves_administered (out : Outside ω) (d : Deployment) : Preserves (step out d) (Administered d) := by
  rintro s ⟨env, c⟩ s' hadmin h
  cases c with
  | nft c => exact Nft.step_admin (step_nft_eq_ok.mp h) hadmin
  | registry c =>
      refine nft_of_registry (I := fun n => n.admin = some d.registry) ?_ (step_registry_eq_ok.mp h) hadmin
      intro _ env call nw nw' hcall hnw
      exact Nft.step_admin hcall hnw

/-- **One step, exactly.** -/
theorem neverStranded_iff {t : Tx Call} (hadmin : Administered d s) :
    NeverStranded out d s t ↔ TokensReady out d s t := by
  obtain ⟨env, call⟩ := t
  refine forall₄_congr (fun c hcall hc hlink => forall_congr' (fun hown => ?_))
  obtain rfl : call = .registry c := hcall
  exact accepted_iff_ready hadmin hc hlink hown

/-! ## Whole runs -/

/-- **No call is stranded throughout a run iff every lifecycle call that passes the registry's own checks finds the
    tokens as it needs them.** The registry starts without an NFT contract; its admin may link it at any point, to
    this one or another, and the NFT contract's own registry link may be set or not. -/
theorem never_stranded_iff (out : Outside ω) (d : Deployment) (admin : Address) (link : Option Address) (w : ω)
    (ts : List (Tx Call)) :
    Along (step out d) (NeverStranded out d) (deployed d admin none link w) ts ↔
      Along (step out d) (TokensReady out d) (deployed d admin none link w) ts := by
  refine along_iff (I := Administered d) (P := NeverStranded out d) (Q := TokensReady out d) ?_ ?_ rfl
  · intro s t hadmin
    exact neverStranded_iff hadmin
  · intro s t hadmin _
    exact (preserves_administered out d).exec hadmin t

/-! ## A name older than the link -/

namespace OldName

open Cast

/-- The admin links the registry to the NFT contract. -/
def link : Tx Call := ⟨⟨2000, [admin], none⟩, .registry (.setNftContract contracts.nft)⟩

/-- Alice transfers her name, which has no token. -/
def sell : Tx Call := ⟨⟨3000, [alice], none⟩, .registry (.transfer aliceXlm alice bob 3000)⟩

/-- **Names are stranded by the code**: Alice registers her name, the admin links the NFT contract, and Alice can no
    longer transfer the name, as it has no token. -/
theorem old_name_cannot_be_transferred :
    LedgerOrder [aliceBuys, link, sell] ∧
      ¬ Along (step nothingOutside contracts) (NeverStranded nothingOutside contracts)
        (deployed contracts admin none none ()) [aliceBuys, link, sell] := by
  refine ⟨by decide, fun h => ?_⟩
  obtain ⟨_, _, hsell, _⟩ := h
  generalize hs : exec (step nothingOutside contracts) (exec (step nothingOutside contracts)
    (deployed contracts admin none none ()) aliceBuys) link = s at hsell
  have hlink : s.registry.nftContract = some contracts.nft := by
    rw [← hs]; decide +kernel
  have hown : PassesOwnChecks nothingOutside contracts s sell := by
    apply exists_eq_ok_iff.mpr
    rw [← hs]; decide +kernel
  have hrejected : ¬ ∃ s', step nothingOutside contracts s sell = .ok s' := by
    rw [exists_eq_ok_iff, ← hs]; decide +kernel
  exact hrejected (hsell _ rfl rfl hlink hown)

end OldName

end XlmNs.RegistryNft
