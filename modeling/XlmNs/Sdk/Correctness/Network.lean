import XlmNs.Sdk.Correctness.Retry
import XlmNs.Sdk.Writes

/-!
# `Sdk.Correctness.Network` — which writes are refused on the wrong network

Before it submits, a client asks the service which network it serves. `verifyWriteNetwork_iff` says exactly when that
refuses a write: no passphrase is configured, or the first answer there is within the retries is of another network. A
service that cannot be reached refuses nothing.

`submit_network`: twelve of the writes go through this check in the world they start in, the other six are the same
whatever network there is.
-/

namespace XlmNs.Sdk

open Soroban
open Ingestion (Duration)

variable {ω α β : Type} {out : Outside ω} {client : XlmNsClient} {w w' : ω}

/-! ## Actions -/

theorem Action.bind_run (x : Action ω α) (f : α → Action ω β) (w : ω) :
    (x >>= f) w = match x w with
      | (.ok a, w')    => f a w'
      | (.error e, w') => (.error e, w') := by
  simp only [bind, ExceptT.bind, ExceptT.mk, StateT.bind]
  rcases x w with ⟨_ | _, _⟩ <;> rfl

theorem Action.tryCatch_run (x : Action ω α) (handle : SdkError → Action ω α) (w : ω) :
    (tryCatch x handle : Action ω α) w = match x w with
      | (.ok a, w')    => (.ok a, w')
      | (.error e, w') => handle e w' := by
  simp only [tryCatch, tryCatchThe, MonadExceptOf.tryCatch, ExceptT.tryCatch, ExceptT.mk, bind, StateT.bind]
  rcases x w with ⟨_ | _, _⟩ <;> rfl

theorem Action.bind_eq_ok {x : Action ω α} {f : α → Action ω β} {b : β} :
    (x >>= f) w = (.ok b, w') ↔ ∃ a w₁, x w = (.ok a, w₁) ∧ f a w₁ = (.ok b, w') := by
  rw [Action.bind_run]
  rcases x w with ⟨e | a, w₁⟩
  · refine iff_of_false nofun ?_
    rintro ⟨_, _, h, _⟩
    cases (Prod.mk.inj h).1
  · constructor
    · intro h
      exact ⟨a, w₁, rfl, h⟩
    · rintro ⟨a', w₁', h, hrest⟩
      obtain ⟨ha, rfl⟩ := Prod.mk.inj h
      obtain rfl := Except.ok.inj ha
      exact hrest

theorem Action.pure_eq_ok {a b : α} : (pure a : Action ω α) w = (.ok b, w') ↔ a = b ∧ w = w' := by
  show (Except.ok a, w) = (Except.ok b, w') ↔ _
  simp

theorem Action.map_eq_ok {x : Action ω α} {g : α → β} {b : β} :
    (g <$> x) w = (.ok b, w') ↔ ∃ a, x w = (.ok a, w') ∧ g a = b := by
  rw [map_eq_pure_bind, Action.bind_eq_ok]
  simp only [Action.pure_eq_ok]
  constructor
  · rintro ⟨a, w₁, hx, hg, rfl⟩
    exact ⟨a, hx, hg⟩
  · rintro ⟨a, hx, hg⟩
    exact ⟨a, w', hx, hg, rfl⟩

theorem Action.throw_ne_ok {e : SdkError} {b : α} : (throw e : Action ω α) w ≠ (.ok b, w') := nofun

/-- A check leaves the world alone. -/
theorem check_eq_ok {b : Bool} {message : String} {u : Unit} :
    (check b message : Action ω Unit) w = (.ok u, w') ↔ b = true ∧ w = w' := by
  unfold check
  cases b with
  | true => exact Action.pure_eq_ok.trans (and_congr_left fun _ => ⟨fun _ => rfl, fun _ => rfl⟩)
  | false => exact iff_of_false Action.throw_ne_ok (fun h => Bool.noConfusion h.1)

theorem requireContractId_eq_ok {contractId : Option String} {fieldName id : String} :
    (requireContractId contractId fieldName : Action ω String) w = (.ok id, w') ↔
      contractId = some id ∧ validateContractId id = .ok () ∧ w = w' := by
  unfold requireContractId
  cases contractId with
  | none =>
      refine iff_of_false Action.throw_ne_ok ?_
      rintro ⟨h, _⟩
      cases h
  | some given =>
      cases hvalid : validateContractId given with
      | ok u =>
          simp only [hvalid]
          refine Action.pure_eq_ok.trans ⟨?_, ?_⟩
          · rintro ⟨rfl, rfl⟩
            exact ⟨rfl, hvalid, rfl⟩
          · rintro ⟨h, _, rfl⟩
            exact ⟨Option.some.inj h, rfl⟩
      | error err =>
          simp only [hvalid]
          refine iff_of_false Action.throw_ne_ok ?_
          rintro ⟨h, hok, _⟩
          obtain rfl := Option.some.inj h
          cases hvalid.symm.trans hok

/-! ## The network check -/

/-- One look at the network finds another one. -/
theorem verifyNetworkPassphrase_eq_mismatch {configured rpcUrl p q : String} {u : ω} :
    verifyNetworkPassphrase out configured rpcUrl u = (.error (.networkPassphraseMismatch p q), w') ↔
      p = configured ∧ out.getNetwork rpcUrl u = (.ok q, w') ∧ configured ≠ q := by
  unfold verifyNetworkPassphrase fetchNetworkPassphrase
  rw [Action.bind_run]
  rcases out.getNetwork rpcUrl u with ⟨e | reported, w₁⟩
  · refine iff_of_false nofun ?_
    rintro ⟨_, h, _⟩
    cases (Prod.mk.inj h).1
  · dsimp only
    split
    · rename_i hne
      show (Except.error _, w₁) = (Except.error _, w') ↔ _
      constructor
      · intro h
        obtain ⟨he, rfl⟩ := Prod.mk.inj h
        obtain ⟨rfl, rfl⟩ := SdkError.networkPassphraseMismatch.inj (Except.error.inj he)
        exact ⟨rfl, rfl, hne⟩
      · rintro ⟨rfl, h, _⟩
        obtain ⟨hok, rfl⟩ := Prod.mk.inj h
        obtain rfl := Except.ok.inj hok
        rfl
    · rename_i hsame
      refine iff_of_false nofun ?_
      rintro ⟨_, h, hne⟩
      obtain ⟨hok, _⟩ := Prod.mk.inj h
      obtain rfl := Except.ok.inj hok
      exact hsame hne

/-- The first definite answer of the service within the retries is `q`. -/
def Answers (out : Outside ω) (client : XlmNsClient) (configured : String) (w : ω) (q : String) (w' : ω) : Prop :=
  out.newClient client.rpcUrl = none ∧ ∃ k u total,
    Retried out client.retry (verifyNetworkPassphrase out configured client.rpcUrl) w k u total ∧
      k ≤ client.retry.maxRetries.toNat ∧ out.getNetwork client.rpcUrl u = (.ok q, w')

theorem execute_eq_mismatch {configured p q : String} :
    client.executeWithRetry out (verifyNetworkPassphrase out configured client.rpcUrl) w
        = (.error (.networkPassphraseMismatch p q), w') ↔
      p = configured ∧ configured ≠ q ∧ Answers out client configured w q w' := by
  unfold XlmNsClient.executeWithRetry
  cases hclient : out.newClient client.rpcUrl with
  | some e =>
      rw [executeWithRetry_unconnected hclient]
      constructor
      · intro h
        cases (Prod.mk.inj h).1
      · rintro ⟨_, _, hnone, _⟩
        cases hclient.symm.trans hnone
  | none =>
      rw [executeWithRetry_connected hclient]
      constructor
      · rintro ⟨k, u, total, answer, hretried, hle, _, hcall, hconcludes⟩
        cases hconcludes with
        | permanent _ =>
            obtain ⟨hp, hnetwork, hne⟩ := verifyNetworkPassphrase_eq_mismatch.mp hcall
            exact ⟨hp, hne, hclient, k, u, total, hretried, hle, hnetwork⟩
      · rintro ⟨hp, hne, _, k, u, total, hretried, hle, hnetwork⟩
        have hcall := verifyNetworkPassphrase_eq_mismatch.mpr ⟨hp, hnetwork, hne⟩
        exact ⟨k, u, total, _, hretried, hle, hretried.total_le.1, hcall, .permanent rfl⟩

theorem verifyWriteNetwork_unconfigured (hnone : client.networkPassphrase = none) :
    client.verifyWriteNetwork out w = (.error (.invalidRequest "network passphrase not configured"), w) := by
  unfold XlmNsClient.verifyWriteNetwork XlmNsClient.configuredNetworkPassphrase
  rw [hnone]
  rfl

/-- **When a write is refused for the network.** -/
theorem verifyWriteNetwork_iff (out : Outside ω) (client : XlmNsClient) (w : ω) (e : SdkError) (w' : ω) :
    client.verifyWriteNetwork out w = (.error e, w') ↔
      (client.networkPassphrase = none ∧ e = .invalidRequest "network passphrase not configured" ∧ w = w') ∨
      ∃ configured q, client.networkPassphrase = some configured ∧ configured ≠ q ∧
        e = .networkPassphraseMismatch configured q ∧ Answers out client configured w q w' := by
  cases hpassphrase : client.networkPassphrase with
  | none =>
      rw [verifyWriteNetwork_unconfigured hpassphrase]
      constructor
      · intro h
        obtain ⟨he, rfl⟩ := Prod.mk.inj h
        exact Or.inl ⟨rfl, (Except.error.inj he).symm, rfl⟩
      · rintro (⟨_, rfl, rfl⟩ | ⟨_, _, h, _⟩)
        · rfl
        · cases h
  | some configured =>
      unfold XlmNsClient.verifyWriteNetwork XlmNsClient.configuredNetworkPassphrase
      rw [hpassphrase, Action.bind_run]
      show (tryCatch _ _ : Action ω Unit) w = _ ↔ _
      rw [Action.tryCatch_run]
      constructor
      · intro h
        right
        split at h
        · cases (Prod.mk.inj h).1
        · rename_i err w₁ hrun
          split at h
          · rename_i p q
            obtain ⟨he, rfl⟩ := Prod.mk.inj h
            obtain rfl := Except.error.inj he
            obtain ⟨rfl, hne, hanswers⟩ := execute_eq_mismatch.mp hrun
            exact ⟨p, q, rfl, hne, rfl, hanswers⟩
          · cases (Prod.mk.inj h).1
      · rintro (⟨h, _⟩ | ⟨p, q, hp, hne, rfl, hanswers⟩)
        · cases h
        · obtain rfl := Option.some.inj hp
          rw [execute_eq_mismatch.mpr ⟨rfl, hne, hanswers⟩]
          rfl

/-! ## The writes -/

/-- The writes that look at the network. -/
def Write.isGuarded : Write → Bool
  | .setTextRecords .. | .mintNft .. | .approveNft .. | .transferNft .. | .loadReservedManifest ..
  | .simulateAndSubmit .. => false
  | _ => true

theorem executeWithRetry_network (getNetwork : String → ω → Except String String × ω) (config : RetryConfig)
    (rpcUrl : String) (f : Action ω α) :
    executeWithRetry { out with getNetwork := getNetwork } config rpcUrl f = executeWithRetry out config rpcUrl f := rfl

theorem maybeHydrateSubmission_network (getNetwork : String → ω → Except String String × ω)
    (submission : TransactionSubmission) :
    client.maybeHydrateSubmission { out with getNetwork := getNetwork } submission =
      client.maybeHydrateSubmission out submission := by
  unfold XlmNsClient.maybeHydrateSubmission XlmNsClient.executeWithRetry
  simp only [executeWithRetry_network]
  rfl

theorem simulateAndSubmit_network (getNetwork : String → ω → Except String String × ω) (contractId : Option String)
    (function : String) (signer : Option String) (dryRun : Bool) :
    client.simulateAndSubmit { out with getNetwork := getNetwork } contractId function signer dryRun =
      client.simulateAndSubmit out contractId function signer dryRun := by
  unfold XlmNsClient.simulateAndSubmit
  simp only [maybeHydrateSubmission_network]
  rfl

theorem nftWrite_network (getNetwork : String → ω → Except String String × ω)
    (function tokenId account field : String) (dryRun : Bool) :
    client.nftWrite { out with getNetwork := getNetwork } function tokenId account field dryRun =
      client.nftWrite out function tokenId account field dryRun := by
  unfold XlmNsClient.nftWrite
  simp only [maybeHydrateSubmission_network, simulateAndSubmit_network]

/-- What comes after a check of the network comes after one that passed. -/
theorem verified_of_bind {f : Unit → Action ω α} {a : α}
    (h : (client.verifyWriteNetwork out >>= f) w = (.ok a, w')) :
    ∃ w₁, client.verifyWriteNetwork out w = (.ok (), w₁) := by
  obtain ⟨_, w₁, hverify, _⟩ := Action.bind_eq_ok.mp h
  exact ⟨w₁, hverify⟩

/-- **Which writes depend on the network**: twelve are made only if the check passes in the world they start in; the other
    six never look, and do the same on every network. -/
theorem submit_network (out : Outside ω) (client : XlmNsClient) (c : Write) :
    if c.isGuarded then
      ∀ w v w', client.submit out c w = (.ok v, w') → ∃ w₁, client.verifyWriteNetwork out w = (.ok (), w₁)
    else ∀ getNetwork, client.submit { out with getNetwork := getNetwork } c = client.submit out c := by
  cases c with
  | setTextRecords name signer =>
      intro getNetwork
      unfold XlmNsClient.submit XlmNsClient.setTextRecords
      simp only [maybeHydrateSubmission_network]
      rfl
  | mintNft | approveNft | transferNft =>
      intro getNetwork
      exact congrArg (fun write => some <$> write) (nftWrite_network getNetwork _ _ _ _ _)
  | simulateAndSubmit contractId function signer dryRun =>
      intro getNetwork
      exact congrArg (fun write => some <$> write) (simulateAndSubmit_network getNetwork _ _ _ _)
  | loadReservedManifest labels signer =>
      intro getNetwork
      rfl
  | register label owner durationYears signer =>
      intro w v w' h
      obtain ⟨_, h, _⟩ := Action.map_eq_ok.mp h
      simp only [XlmNsClient.register, requireLabel, Action.bind_eq_ok, check_eq_ok, requireContractId_eq_ok] at h
      obtain ⟨_, _, ⟨_, rfl⟩, _, _, ⟨_, rfl⟩, _, _, ⟨_, rfl⟩, _, _, ⟨_, _, rfl⟩, _, w₁, hverify, _⟩ := h
      exact ⟨w₁, hverify⟩
  | renew name additionalYears signer =>
      intro w v w' h
      obtain ⟨_, h, _⟩ := Action.map_eq_ok.mp h
      simp only [XlmNsClient.renew, requireLabel, Action.bind_eq_ok, check_eq_ok, requireContractId_eq_ok] at h
      obtain ⟨_, _, ⟨_, rfl⟩, _, _, ⟨_, rfl⟩, _, _, ⟨_, _, rfl⟩, _, w₁, hverify, _⟩ := h
      exact ⟨w₁, hverify⟩
  | _ =>
      intro w v w' h
      obtain ⟨_, h, _⟩ := Action.map_eq_ok.mp h
      exact verified_of_bind h

end XlmNs.Sdk
