import XlmNs.Nft.Correctness.ExpiryCopies
import XlmNs.System.TokenAgreement

/-!
# `System.ExpiryCopies` — the two expiries of a token, with the registry that renews the name

A renewal in a linked registry is pushed to the token's record; the cached dates wait for `refresh_name_data`, which in
turn leaves the record. `expiry_copies`: along every run of the two contracts, from their deployment, the cached expiry
is the one the registry reported last and the record's the one pushed last, and the two are equal throughout iff every
accepted call writes into one copy what the other holds.
-/

namespace XlmNs.RegistryNft

open Soroban
open Nft (Told Traced CopiesAgree)

variable {ω : Type} {out : Outside ω} {d : Deployment} {env : Env} {s s' : State ω}

/-! ## What the NFT contract is told -/

/-- What a list of calls of the registry tells. -/
def noteCalls (out : Outside ω) (d : Deployment) (now : UInt64) (link : Option Address) (w : ω)
    (calls : List Registry.NftCall) (told : Told) : Told :=
  calls.foldl (fun told call => told.note (duringRegistry out d) now link w (entrypoint call)) told

/-- What a transaction tells. -/
def note (out : Outside ω) (d : Deployment) (s : State ω) (t : Tx Call) (_ : State ω) (told : Told) : Told :=
  match t.call with
  | .nft c => told.note (theRegistry out d) t.env.timestamp s.nft.registry (s.registry, s.world) c
  | .registry c =>
      if s.registry.nftContract = some d.nft then
        noteCalls out d t.env.timestamp s.nft.registry s.world (c.nested s.registry) told
      else told

/-- The calls of the registry keep the NFT contract's own link and the world. -/
theorem entrypoint_keeps {call : Registry.NftCall} {n n' : Nft.State} {w w' : ω}
    (h : Nft.step (duringRegistry out d) d.nft (n, w) ⟨env, entrypoint call⟩ = .ok (n', w')) :
    n'.registry = n.registry ∧ w' = w := by
  constructor
  · rcases Nft.step_config h with ⟨_, hcall, _⟩ | ⟨_, _, hcall, _⟩ | ⟨_, hsame⟩
    · cases call <;> cases hcall
    · cases call <;> cases hcall
    · exact hsame
  · cases call <;>
    · simp only [entrypoint, Nft.step, bind_eq_ok, pure_eq_ok, Prod.mk.injEq] at h
      obtain ⟨_, _, _, rfl⟩ := h
      rfl

theorem callsNft_traced {calls : List Registry.NftCall} {n n' : Nft.State} {w w' : ω} {told : Told}
    (h : Registry.callsNft (theNft out d) env d.nft calls (n, w) = some (n', w')) (htraced : Traced n told) :
    Traced n' (noteCalls out d env.timestamp n.registry w calls told) := by
  induction calls generalizing n w told with
  | nil =>
      obtain ⟨rfl, rfl⟩ := Prod.mk.inj (Option.some.inj h)
      exact htraced
  | cons call calls ih =>
      have hsplit : Registry.callsNft (theNft out d) env d.nft ([call] ++ calls) (n, w) = some (n', w') := h
      obtain ⟨⟨n₁, w₁⟩, hcall, hcalls⟩ := Registry.callsNft_append_eq_some.mp hsplit
      rw [Registry.callsNft_one] at hcall
      have hstep := theNft_eq_some.mp hcall
      -- the link and the world are those the calls started with
      obtain ⟨hlink, rfl⟩ := entrypoint_keeps hstep
      have hrest := ih hcalls (Nft.traced_step hstep htraced)
      rw [hlink] at hrest
      exact hrest

theorem nested_of_notPassedOn {c : Registry.Call} (hc : c.isPassedOn = false) (g : Registry.State) :
    c.nested g = [] := by
  cases c with
  | register | transfer | renew | burn => cases hc
  | _ => rfl

/-- Only a mint looks at the world, and the registry leaves it alone until then. -/
theorem noteCalls_world {c : Registry.Call} {g g₁ : Registry.State} {n n₁ : Nft.State} {w w₁ : ω}
    (hc : c.isPassedOn = true)
    (halone : Registry.step (theNft out d) d.registry (Registry.unlinked g, n, w) ⟨env, c⟩ = .ok (g₁, n₁, w₁))
    (now : UInt64) (link : Option Address) (told : Told) :
    noteCalls out d now link w₁ (c.nested g) told = noteCalls out d now link w (c.nested g) told := by
  cases c with
  | register =>
      obtain ⟨_, rfl⟩ := Prod.mk.inj (Registry.register_unlinked_world halone)
      rfl
  | transfer | renew | burn => rfl
  | _ => cases hc

/-- **One committed transaction.** -/
theorem traced_step {t : Tx Call} {told : Told} (h : step out d s t = .ok s') (htraced : Traced s.nft told) :
    Traced s'.nft (note out d s t s' told) := by
  obtain ⟨env, c⟩ := t
  cases c with
  | nft c => exact Nft.traced_step (step_nft_eq_ok.mp h) htraced
  | registry c =>
      show Traced s'.nft (if s.registry.nftContract = some d.nft then _ else told)
      split
      · rename_i hlink
        by_cases hc : c.isPassedOn = true
        · obtain ⟨g, ⟨n, w⟩, halone, _, hcalls⟩ :=
            (Registry.step_linked_iff hlink hc).mp (step_registry_eq_ok.mp h)
          obtain rfl := nft_of_unlinked (Option.some_ne_none d.nft).symm halone
          have hafter := callsNft_traced hcalls htraced
          rw [noteCalls_world hc halone] at hafter
          exact hafter
        · rw [nested_of_notPassedOn (Bool.eq_false_iff.mpr hc), nft_of_notPassedOn (fun hboth => hc hboth.2) h]
          exact htraced
      · rename_i hlink
        rw [nft_of_notPassedOn (fun hboth => hlink hboth.1) h]
        exact htraced

theorem preserves_traced (out : Outside ω) (d : Deployment) :
    Preserves (withHistory (step out d) (note out d)) (fun st => Traced st.1.nft st.2) := by
  rintro ⟨s, told⟩ t ⟨s', told'⟩ htraced h
  obtain ⟨hstep, rfl⟩ := withHistory_eq_ok.mp h
  exact traced_step hstep htraced

/-! ## When the copies stay equal -/

/-- A call writes into one copy what the other holds. Those of a linked registry come through the calls it makes. -/
def WritesEqual (out : Outside ω) (d : Deployment) (now : UInt64) (s : State ω) : Call → Prop
  | .nft c => Nft.KeepsCopies (theRegistry out d) now s.nft (s.registry, s.world) c
  | .registry c =>
      s.registry.nftContract = some d.nft → ∀ call ∈ c.nested s.registry,
        Nft.KeepsCopies (duringRegistry out d) now s.nft s.world (entrypoint call)

/-- **Every accepted call that writes one copy writes what the other holds.** -/
def KeepsCopies (out : Outside ω) (d : Deployment) (s : State ω) (t : Tx Call) : Prop :=
  (∃ s', step out d s t = .ok s') → WritesEqual out d t.env.timestamp s t.call

/-- The copies agree after a transaction. -/
def CopiesAgreeAfter (out : Outside ω) (d : Deployment) (s : State ω) (t : Tx Call) : Prop :=
  CopiesAgree (exec (step out d) s t).nft

/-- The calls a lifecycle call passes on, made one after the other. -/
theorem nested_copiesAgree_iff {c : Registry.Call} {g : Registry.State} {n n' : Nft.State} {w w' : ω} {told : Told}
    (hc : c.isPassedOn = true) (htraced : Traced n told) (hagree : CopiesAgree n)
    (h : Registry.callsNft (theNft out d) env d.nft (c.nested g) (n, w) = some (n', w')) :
    CopiesAgree n' ↔
      ∀ call ∈ c.nested g, Nft.KeepsCopies (duringRegistry out d) env.timestamp n w (entrypoint call) := by
  have hone : ∀ {call : Registry.NftCall},
      Registry.callsNft (theNft out d) env d.nft [call] (n, w) = some (n', w') →
        (CopiesAgree n' ↔
          ∀ c' ∈ [call], Nft.KeepsCopies (duringRegistry out d) env.timestamp n w (entrypoint c')) := by
    intro call hcall
    rw [Registry.callsNft_one] at hcall
    rw [List.forall_mem_singleton]
    exact Nft.copiesAgree_step_iff (theNft_eq_some.mp hcall) htraced.unlinked hagree
  cases c with
  | register name owner targetAddress metadataUri nowUnix expiresAt gracePeriodEndsAt =>
      cases he : g.entry name with
      | none =>
          simp only [Registry.Call.nested, Registry.releaseCalls_of_none he, List.nil_append] at h ⊢
          exact hone h
      | some e =>
          simp only [Registry.Call.nested, Registry.releaseCalls_of_some he] at h ⊢
          obtain ⟨⟨n₁, w₁⟩, hburn, hmint⟩ := Registry.callsNft_append_eq_some.mp h
          rw [Registry.callsNft_one] at hburn hmint
          have hburned := theNft_eq_some.mp hburn
          -- the burn drops a token, and what the mint is answered depends on the link alone
          have hagree₁ : CopiesAgree n₁ :=
            (Nft.copiesAgree_step_iff hburned htraced.unlinked hagree).mpr trivial
          obtain ⟨hlink, rfl⟩ := entrypoint_keeps hburned
          have hminted := Nft.copiesAgree_step_iff (theNft_eq_some.mp hmint)
            (Nft.traced_step hburned htraced).unlinked hagree₁
          rw [hminted, List.forall_mem_append, List.forall_mem_singleton, List.forall_mem_singleton]
          simp only [entrypoint, Nft.KeepsCopies, hlink, true_and]
  | transfer | renew | burn => exact hone h
  | _ => cases hc

theorem nested_keepsCopies_world {c : Registry.Call} {g g₁ : Registry.State} {n n₁ : Nft.State} {w w₁ : ω}
    (hc : c.isPassedOn = true)
    (halone : Registry.step (theNft out d) d.registry (Registry.unlinked g, n, w) ⟨env, c⟩ = .ok (g₁, n₁, w₁))
    (now : UInt64) :
    (∀ call ∈ c.nested g, Nft.KeepsCopies (duringRegistry out d) now n w₁ (entrypoint call)) ↔
      ∀ call ∈ c.nested g, Nft.KeepsCopies (duringRegistry out d) now n w (entrypoint call) := by
  cases c with
  | register =>
      obtain ⟨_, rfl⟩ := Prod.mk.inj (Registry.register_unlinked_world halone)
      exact Iff.rfl
  | transfer | renew | burn =>
      simp only [Registry.Call.nested, List.forall_mem_singleton]
      exact Iff.rfl
  | _ => cases hc

/-- **One committed transaction, exactly.** -/
theorem copiesAgree_step_iff {c : Call} {told : Told} (htraced : Traced s.nft told) (hagree : CopiesAgree s.nft)
    (h : step out d s ⟨env, c⟩ = .ok s') : CopiesAgree s'.nft ↔ WritesEqual out d env.timestamp s c := by
  cases c with
  | nft c => exact Nft.copiesAgree_step_iff (step_nft_eq_ok.mp h) htraced.unlinked hagree
  | registry c =>
      by_cases hboth : s.registry.nftContract = some d.nft ∧ c.isPassedOn = true
      · obtain ⟨hlink, hc⟩ := hboth
        obtain ⟨g, ⟨n, w⟩, halone, _, hcalls⟩ :=
          (Registry.step_linked_iff hlink hc).mp (step_registry_eq_ok.mp h)
        obtain rfl := nft_of_unlinked (Option.some_ne_none d.nft).symm halone
        have hnested := nested_copiesAgree_iff hc htraced hagree hcalls
        rw [nested_keepsCopies_world hc halone] at hnested
        exact hnested.trans ⟨fun hall _ => hall, fun hall => hall hlink⟩
      · rw [nft_of_notPassedOn hboth h]
        refine iff_of_true hagree ?_
        intro hlink call hcall
        rw [nested_of_notPassedOn (Bool.eq_false_iff.mpr fun hc => hboth ⟨hlink, hc⟩)] at hcall
        cases hcall

theorem copiesAgreeAfter_iff {t : Tx Call} {told : Told} (htraced : Traced s.nft told) (hagree : CopiesAgree s.nft) :
    CopiesAgreeAfter out d s t ↔ KeepsCopies out d s t :=
  exec_iff (P := fun s : State ω => CopiesAgree s.nft) hagree fun _ h => copiesAgree_step_iff htraced hagree h

/-! ## Whole runs -/

/-- **What the two copies are**: the one that `metadata` goes by was reported last, the record's was pushed last. -/
structure CopiesTraced (n : Nft.State) (told : Told) : Prop where
  cached : ∀ tokenId record data, n.token tokenId = some record → n.nameData tokenId = some data →
             told.reported tokenId = some data.expiryDate
  record : ∀ tokenId record, n.token tokenId = some record → told.pushed tokenId = some record.expiresAt
  shown  : ∀ tokenId nowUnix data, Nft.metadata n tokenId nowUnix = some data →
             ∃ expiry, told.reported tokenId = some expiry ∧ data.expiryDate = expiry ∧
               data.isExpired = decide (nowUnix > expiry)

theorem copiesTraced_of_traced {n : Nft.State} {told : Told} (h : Traced n told) : CopiesTraced n told := by
  constructor
  · intro tokenId record data hrecord hdata
    rw [← h.reported, Nft.shown, hrecord, Option.bind_some, hdata]
    rfl
  · intro tokenId record hrecord
    rw [← h.pushed]
    exact Store.view_eq _ hrecord
  · intro tokenId nowUnix data hdata
    obtain ⟨hshown, hexpired⟩ := Nft.metadata_shown hdata
    rw [← h.reported]
    exact ⟨_, hshown, rfl, hexpired⟩

/-- The machine that remembers what the NFT contract was told. -/
abbrev tracedStep (out : Outside ω) (d : Deployment) := withHistory (step out d) (note out d)

/-- **The two copies along a run** of both contracts from their deployment, with any transactions: each holds what it
    was told last, and they are equal throughout iff every accepted call writes into one copy what the other holds. -/
theorem expiry_copies (out : Outside ω) (d : Deployment) (w : ω) (ts : List (Tx Call)) :
    CopiesTraced (run (tracedStep out d) (uninitialised w, Told.nothing) ts).1.nft
        (run (tracedStep out d) (uninitialised w, Told.nothing) ts).2 ∧
      (Along (step out d) (CopiesAgreeAfter out d) (uninitialised w) ts ↔
        Along (step out d) (KeepsCopies out d) (uninitialised w) ts) := by
  have hstart : Traced (uninitialised w).nft Told.nothing := Nft.traced_empty
  constructor
  · exact copiesTraced_of_traced ((preserves_traced out d).run ts (s := (uninitialised w, Told.nothing)) hstart)
  -- what was told goes along, as the exact condition of one step is about traced states
  · have hempty : CopiesAgree (uninitialised w).nft := fun _ _ _ hrecord => nomatch hrecord
    have htraced : ∀ P : State ω → Tx Call → Prop, Along (step out d) P (uninitialised w) ts ↔
        Along (tracedStep out d) (fun st t => P st.1 t) (uninitialised w, Told.nothing) ts := by
      intro P
      rw [along_withHistory]
    rw [htraced, htraced]
    refine along_iff (I := fun st => Traced st.1.nft st.2 ∧ CopiesAgree st.1.nft) ?_ ?_ ⟨hstart, hempty⟩
    · rintro st t ⟨htraced, hagree⟩
      exact copiesAgreeAfter_iff htraced hagree
    · rintro st t ⟨htraced, _⟩ hafter
      refine ⟨(preserves_traced out d).exec htraced t, ?_⟩
      rw [exec_withHistory]
      exact hafter

/-! ## A renewal -/

namespace Renewal

open Cast

/-- Alice's name is registered, and her token minted with the expiry of the entry. -/
def minted : List (Tx Call) :=
  [⟨⟨500, [deployer], none⟩, .nft (.initializeContract deployer)⟩,
   ⟨⟨500, [deployer], none⟩, .nft (.setRegistry deployer contracts.registry)⟩,
   ⟨⟨500, [admin], none⟩, .registry (.initializeContract admin)⟩,
   aliceBuys,
   ⟨⟨1000, [deployer], none⟩, .nft (.mint aliceXlm alice none 31537000)⟩]

/-- Alice renews her name in the registry. -/
def renew : Tx Call := ⟨⟨1000, [alice], none⟩, .registry (.renew aliceXlm alice 63073000 65665000 1000)⟩

/-- Somebody has the token's dates cached again. -/
def refresh : Tx Call := ⟨⟨1000, [], none⟩, .nft (.refreshNameData aliceXlm)⟩

/-- **A refreshed cache runs ahead of the record**: after the renewal, the cached expiry is the new one and the record
    still shows the old one. -/
theorem refresh_leaves_record :
    LedgerOrder (minted ++ [renew, refresh]) ∧
      ¬ CopiesAgree (run (step nothingOutside contracts) (uninitialised ()) (minted ++ [renew, refresh])).nft := by
  refine ⟨by decide, fun h => ?_⟩
  generalize hs : run (step nothingOutside contracts) (uninitialised ()) (minted ++ [renew, refresh]) = s at h
  have hrecord : s.nft.token aliceXlm = some ⟨alice, none, none, 31537000⟩ := by
    rw [← hs]; decide +kernel
  have hdata : s.nft.nameData aliceXlm = some ⟨1000, 63073000, none⟩ := by
    rw [← hs]; decide +kernel
  exact absurd (h aliceXlm _ _ hrecord hdata) (by decide)

end Renewal

end XlmNs.RegistryNft
