import XlmNs.Sdk.Correctness.Network
import XlmNs.Soroban.Utf8

/-!
# `Sdk.Correctness.Submissions` — what a write reports

Whatever the service answers, polling for a transaction makes no write fail, and only its answers make a submission
confirmed or failed (`submission_reports`). That it polls at all rests on the form of the computed hashes:
`parse_generated`, writing four words in hexadecimal and reading them back.
-/

namespace XlmNs.Sdk

open Soroban
open Ingestion (Duration)

variable {ω α β : Type} {out : Outside ω} {client : XlmNsClient} {w w' : ω}

/-! ## Text -/

theorem dropWhile_of_forall {chars : List Char} (h : ∀ ch ∈ chars, isWhitespace ch = false) :
    chars.dropWhile isWhitespace = chars := by
  cases chars with
  | nil => rfl
  | cons ch chars => exact List.dropWhile_cons_of_neg (by rw [h ch List.mem_cons_self]; exact Bool.false_ne_true)

/-- There is nothing to trim without white space. -/
theorem trim_of_forall {value : String} (h : ∀ ch ∈ value.toList, isWhitespace ch = false) : trim value = value.toList := by
  have hreverse : ∀ ch ∈ value.toList.reverse, isWhitespace ch = false := fun ch hch => h ch (List.mem_reverse.mp hch)
  rw [trim, dropWhile_of_forall h, dropWhile_of_forall hreverse, List.reverse_reverse]

/-- Each ASCII character is a byte. -/
theorem byteLength_of_ascii {chars : List Char} (h : ∀ ch ∈ chars, ch.toNat < 128) : byteLength chars = chars.length := by
  rw [byteLength, ← length_utf8, utf8_eq_encode, String.toList_ofList]
  induction chars with
  | nil => rfl
  | cons ch chars ih =>
      have htail := ih (fun c hc => h c (List.mem_cons_of_mem ch hc))
      rw [encode_cons, encodeChar_of_lt (h ch List.mem_cons_self), List.length_append, htail, List.length_singleton,
        List.length_cons, Nat.add_comm]

/-! ## Hexadecimal -/

theorem hexDigit_spec {n : Nat} (h : n < 16) :
    hexValue (hexDigit n) = some n ∧ (hexDigit n).toNat < 128 ∧ isWhitespace (hexDigit n) = false := by
  have hall : ∀ n : Fin 16, hexValue (hexDigit n.val) = some n.val ∧ (hexDigit n.val).toNat < 128 ∧
      isWhitespace (hexDigit n.val) = false := by decide
  exact hall ⟨n, h⟩

/-- The two digits of a byte. -/
def hexPair (b : UInt8) : List Char := [hexDigit (b.toNat / 16), hexDigit (b.toNat % 16)]

/-- The bytes of a word, the highest first. -/
def wordBytes (word : UInt64) : Bytes := (List.range 8).map (fun i => UInt8.ofNat (word.toNat / 256 ^ (7 - i) % 256))

/-- A word is written byte by byte. -/
theorem hexWord_eq (word : UInt64) : hexWord word = (wordBytes word).flatMap hexPair := by
  have hpair : ∀ n : Nat, hexPair (UInt8.ofNat (n % 256)) = [hexDigit (n / 16 % 16), hexDigit (n % 16)] := by
    intro n
    have hbyte : (UInt8.ofNat (n % 256)).toNat = n % 256 := by
      rw [UInt8.toNat_ofNat', Nat.mod_mod]
    rw [hexPair, hbyte]
    congr 2
    · omega
    · congr 1
      omega
  simp only [hexWord, wordBytes, List.range_succ, List.range_zero, List.nil_append, List.map_cons, List.map_nil,
    List.flatMap_cons, List.flatMap_nil, List.append_nil, List.cons_append, hpair, Nat.div_div_eq_div_mul]
  rfl

/-- **Reading back**: pairs of digits are the bytes they were written from. -/
theorem hexBytes_pairs (bytes : Bytes) : hexBytes (bytes.flatMap hexPair) = some bytes := by
  induction bytes with
  | nil => rfl
  | cons b bytes ih =>
      have hb : b.toNat < 256 := b.toNat_lt
      have hhigh := (hexDigit_spec (Nat.div_lt_of_lt_mul hb : b.toNat / 16 < 16)).1
      have hlow := (hexDigit_spec (Nat.mod_lt b.toNat (by decide : 0 < 16))).1
      show hexBytes (hexDigit (b.toNat / 16) :: hexDigit (b.toNat % 16) :: bytes.flatMap hexPair) = _
      rw [hexBytes, hhigh, hlow, ih]
      show some (UInt8.ofNat (16 * (b.toNat / 16) + b.toNat % 16) :: bytes) = _
      rw [Nat.div_add_mod, UInt8.ofNat_toNat]

theorem mem_pairs {bytes : Bytes} {ch : Char} (h : ch ∈ bytes.flatMap hexPair) : ∃ n < 16, ch = hexDigit n := by
  obtain ⟨b, _, hch⟩ := List.mem_flatMap.mp h
  have hb : b.toNat < 256 := b.toNat_lt
  rcases List.mem_cons.mp hch with rfl | hch
  · exact ⟨b.toNat / 16, Nat.div_lt_of_lt_mul hb, rfl⟩
  · exact ⟨b.toNat % 16, Nat.mod_lt _ (by decide), List.mem_singleton.mp hch⟩

theorem length_pairs (bytes : Bytes) : (bytes.flatMap hexPair).length = 2 * bytes.length := by
  induction bytes with
  | nil => rfl
  | cons b bytes ih =>
      rw [List.flatMap_cons, List.length_append, ih, List.length_cons]
      show 2 + 2 * bytes.length = _
      omega

/-- The bytes of a computed hash. -/
def hashBytes (out : Outside ω) (operation payload : String) : Bytes :=
  let seed := out.seed operation payload
  [seed, rotateLeft seed 13, rotateLeft seed 27, seed ^^^ 0xa5a5a5a5a5a5a5a5].flatMap wordBytes

/-- **A computed hash reads as 32 bytes**: those of its words. -/
theorem parse_generated (out : Outside ω) (operation payload : String) :
    parseSubmissionHash (generatedSubmissionHash out operation payload) = some (hashBytes out operation payload) := by
  have hchars : (generatedSubmissionHash out operation payload).toList = (hashBytes out operation payload).flatMap hexPair := by
    rw [generatedSubmissionHash, String.toList_ofList, hashBytes, List.flatMap_assoc]
    congr 1
    funext word
    exact hexWord_eq word
  generalize generatedSubmissionHash out operation payload = hash at hchars
  generalize hbytes : hashBytes out operation payload = bytes at hchars
  have hlength : bytes.length = 32 := by
    rw [← hbytes]
    rfl
  have hdigit : ∀ ch ∈ bytes.flatMap hexPair, ∃ n < 16, ch = hexDigit n := fun ch hch => mem_pairs hch
  have htrim : trim hash = bytes.flatMap hexPair := by
    rw [← hchars]
    apply trim_of_forall
    intro ch hch
    rw [hchars] at hch
    obtain ⟨n, hn, rfl⟩ := hdigit ch hch
    exact (hexDigit_spec hn).2.2
  have hsize : byteLength (bytes.flatMap hexPair) = 64 := by
    rw [byteLength_of_ascii, length_pairs, hlength]
    intro ch hch
    obtain ⟨n, hn, rfl⟩ := hdigit ch hch
    exact (hexDigit_spec hn).2.1
  have hall : (bytes.flatMap hexPair).all (fun ch => (hexValue ch).isSome) = true := by
    rw [List.all_eq_true]
    intro ch hch
    obtain ⟨n, hn, rfl⟩ := hdigit ch hch
    rw [(hexDigit_spec hn).1]
    rfl
  unfold parseSubmissionHash
  simp only [htrim, hsize, hall, not_true_eq_false, ne_eq, or_self, if_false, hexBytes_pairs]

/-! ## The worlds of a run -/

/-- From one world to a later one, by what the client asks of the outside. -/
inductive Leads (out : Outside ω) (w : ω) : ω → Prop
  | refl : Leads out w w
  | getNetwork {u : ω} (rpcUrl : String) (before : Leads out w u) : Leads out w (out.getNetwork rpcUrl u).2
  | getTransactionPolling {u : ω} (rpcUrl : String) (txHash : Bytes) (timeout : Duration) (before : Leads out w u) :
      Leads out w (out.getTransactionPolling rpcUrl txHash timeout u).2
  | genRange {u : ω} (millis : UInt64) (before : Leads out w u) : Leads out w (out.genRange millis u).2
  | sleep {u : ω} (delay : Duration) (before : Leads out w u) : Leads out w (out.sleep delay u)
  | nowUnix {u : ω} (before : Leads out w u) : Leads out w (out.nowUnix u).2

theorem Leads.trans {w₁ w₂ w₃ : ω} (h : Leads out w₁ w₂) (h' : Leads out w₂ w₃) : Leads out w₁ w₃ := by
  induction h' with
  | refl => exact h
  | getNetwork rpcUrl _ ih => exact .getNetwork rpcUrl ih
  | getTransactionPolling rpcUrl txHash timeout _ ih => exact .getTransactionPolling rpcUrl txHash timeout ih
  | genRange millis _ ih => exact .genRange millis ih
  | sleep delay _ ih => exact .sleep delay ih
  | nowUnix _ ih => exact .nowUnix ih

/-- An action leads from the world it starts in to the one it ends in. -/
def Within (out : Outside ω) (x : Action ω α) : Prop := ∀ w, Leads out w (x w).2

theorem Within.pure (a : α) : Within out (Pure.pure a : Action ω α) := fun _ => .refl

theorem Within.throw (e : SdkError) : Within out (MonadExcept.throw e : Action ω α) := fun _ => .refl

theorem Within.bind {x : Action ω α} {f : α → Action ω β} (hx : Within out x) (hf : ∀ a, Within out (f a)) :
    Within out (x >>= f) := by
  intro w
  have hfirst := hx w
  rw [Action.bind_run]
  rcases hrun : x w with ⟨e | a, w₁⟩ <;> rw [hrun] at hfirst
  · exact hfirst
  · exact hfirst.trans (hf a w₁)

theorem Within.tryCatch {x : Action ω α} {handle : SdkError → Action ω α} (hx : Within out x)
    (hhandle : ∀ e, Within out (handle e)) : Within out (MonadExcept.tryCatch x handle) := by
  intro w
  have hfirst := hx w
  rw [show (MonadExcept.tryCatch x handle : Action ω α) w = _ from Action.tryCatch_run x handle w]
  rcases hrun : x w with ⟨e | a, w₁⟩ <;> rw [hrun] at hfirst
  · exact hfirst.trans (hhandle e w₁)
  · exact hfirst

theorem check_within (b : Bool) (message : String) : Within out (check b message) := by
  intro w
  cases b <;> exact .refl

theorem requireContractId_within (contractId : Option String) (fieldName : String) :
    Within out (requireContractId contractId fieldName) := by
  unfold requireContractId
  split
  · exact .throw _
  · split
    · exact .pure _
    · exact .throw _

theorem validateAccount_within (value fieldName : String) : Within out (validateAccount value fieldName) := by
  unfold validateAccount
  split
  · exact .pure _
  · exact .throw _

theorem forM_within {f : α → Action ω Unit} (hf : ∀ a, Within out (f a)) (l : List α) : Within out (l.forM f) := by
  induction l with
  | nil => exact .pure ()
  | cons a l ih => exact .bind (hf a) fun _ => ih

theorem sleepDuration_leads (config : RetryConfig) (attempt : Nat) (w : ω) :
    Leads out w (config.sleepDuration out attempt w).2 := by
  unfold RetryConfig.sleepDuration
  dsimp only
  split
  · exact .refl
  · split
    · exact .refl
    · exact .genRange _ .refl

/-- The attempts and the pauses between them. -/
theorem executeWithRetry_within {f : Action ω α} (config : RetryConfig) (rpcUrl : String) (hf : Within out f) :
    Within out (executeWithRetry out config rpcUrl f) := by
  intro w
  cases hclient : out.newClient rpcUrl with
  | some e =>
      rw [executeWithRetry_unconnected hclient]
      exact .refl
  | none =>
      rcases hrun : executeWithRetry out config rpcUrl f w with ⟨r, w'⟩
      obtain ⟨k, u, total, answer, hretried, _, _, hcall, _⟩ := (executeWithRetry_connected hclient).mp hrun
      have hbefore : Leads out w u := by
        refine Retries.invariant (I := fun _ wt => Leads out w wt.1) ?_ hretried .refl
        intro k wt e wt₁ hreached hattempt
        have hend : wt₁.1 = (f wt.1).2 := congrArg (fun answer => answer.2.1) hattempt.symm
        refine .sleep _ (hreached.trans (Leads.trans ?_ (sleepDuration_leads config k wt₁.1)))
        rw [hend]
        exact hf wt.1
      have hlast := hf u
      rw [hcall] at hlast
      exact hbefore.trans hlast

theorem pollTransaction_within (client : XlmNsClient) (txHash : Bytes) : Within out (pollTransaction out client txHash) := by
  intro w
  have hpoll : Leads out w _ := .getTransactionPolling client.rpcUrl txHash client.transactionPollTimeout .refl
  unfold pollTransaction
  split <;> rename_i h <;> rw [h] at hpoll <;> exact hpoll

theorem verifyWriteNetwork_within (client : XlmNsClient) : Within out (client.verifyWriteNetwork out) := by
  have hfetch : Within out (fetchNetworkPassphrase out client.rpcUrl) := by
    intro w
    have hask : Leads out w _ := .getNetwork client.rpcUrl .refl
    unfold fetchNetworkPassphrase
    split <;> rename_i h <;> rw [h] at hask <;> exact hask
  unfold XlmNsClient.verifyWriteNetwork XlmNsClient.configuredNetworkPassphrase
  refine .bind ?_ fun configured => .tryCatch (executeWithRetry_within _ _ (.bind hfetch fun reported => ?_)) ?_
  · split
    · exact .pure _
    · exact .throw _
  · split
    · exact .throw _
    · exact .pure _
  · intro e
    split
    · exact .throw _
    · exact .pure _

/-! ## Polling -/

/-- Between the worlds `w` and `w'` the service has answered a poll for `txHash` so, with the retries there may be. -/
def Polled (out : Outside ω) (client : XlmNsClient) (txHash : Bytes) (ledger : Option UInt32) (status : String)
    (w w' : ω) : Prop :=
  ∃ v k u total u', Leads out w v ∧ Retried out client.retry (pollTransaction out client txHash) v k u total ∧
    k ≤ client.retry.maxRetries.toNat ∧
    out.getTransactionPolling client.rpcUrl txHash client.transactionPollTimeout u = (.ok (ledger, status), u') ∧
    Leads out u' w'

theorem Polled.widen {txHash : Bytes} {ledger : Option UInt32} {status : String} {v v' : ω}
    (h : Polled out client txHash ledger status v v') (hbefore : Leads out w v) (hafter : Leads out v' w') :
    Polled out client txHash ledger status w w' := by
  obtain ⟨v₁, k, u, total, u', hstart, hretried, hle, hanswer, hend⟩ := h
  exact ⟨v₁, k, u, total, u', hbefore.trans hstart, hretried, hle, hanswer, hend.trans hafter⟩

theorem polled_of_execute {txHash : Bytes} {response : Option UInt32 × String}
    (h : client.executeWithRetry out (pollTransaction out client txHash) w = (.ok response, w')) :
    Polled out client txHash response.1 response.2 w w' := by
  unfold XlmNsClient.executeWithRetry at h
  cases hclient : out.newClient client.rpcUrl with
  | some e =>
      rw [executeWithRetry_unconnected hclient] at h
      cases (Prod.mk.inj h).1
  | none =>
      obtain ⟨k, u, total, _, hretried, hle, _, hpoll, hconcludes⟩ := (executeWithRetry_connected hclient).mp h
      cases hconcludes with
      | value =>
          unfold pollTransaction at hpoll
          split at hpoll
          · rename_i answer w₁ hanswer
            obtain ⟨hok, rfl⟩ := Prod.mk.inj hpoll
            obtain rfl := Except.ok.inj hok
            exact ⟨w, k, u, total, w₁, .refl, hretried, hle, hanswer, .refl⟩
          · cases (Prod.mk.inj hpoll).1

/-- **Polling never fails**: a submission stays as it is, or gets ledger and status of an answer. -/
theorem maybeHydrate_spec (out : Outside ω) (client : XlmNsClient) (s : TransactionSubmission) (w : ω) :
    ∃ s' w', client.maybeHydrateSubmission out s w = (.ok s', w') ∧ Leads out w w' ∧
      (s' = s ∨ ∃ txHash ledger status, parseSubmissionHash s.txHash = some txHash ∧
        Polled out client txHash ledger status w w' ∧
          s' = { s with ledger := ledger, status := hydratedStatus s.status status }) := by
  unfold XlmNsClient.maybeHydrateSubmission
  split
  · exact ⟨s, w, rfl, .refl, Or.inl rfl⟩
  · cases hparse : parseSubmissionHash s.txHash with
    | none => exact ⟨s, w, rfl, .refl, Or.inl rfl⟩
    | some txHash =>
        dsimp only
        rw [Action.tryCatch_run, Action.bind_run]
        have hpoll : Within out (pollTransaction out client txHash) := pollTransaction_within client txHash
        have hleads := executeWithRetry_within client.retry client.rpcUrl hpoll w
        rcases hrun : client.executeWithRetry out (pollTransaction out client txHash) w with ⟨e | response, w₁⟩
        · rw [show executeWithRetry _ _ _ _ w = _ from hrun] at hleads
          exact ⟨s, w₁, rfl, hleads, Or.inl rfl⟩
        · rw [show executeWithRetry _ _ _ _ w = _ from hrun] at hleads
          exact ⟨_, w₁, rfl, hleads, Or.inr ⟨txHash, response.1, response.2, rfl, polled_of_execute hrun, rfl⟩⟩

theorem maybeHydrate_within (s : TransactionSubmission) : Within out (client.maybeHydrateSubmission out s) := by
  intro w
  obtain ⟨s', w', hspec, hleads, _⟩ := maybeHydrate_spec out client s w
  rw [hspec]
  exact hleads

theorem simulateAndSubmit_within (contractId : Option String) (function : String) (signer : Option String)
    (dryRun : Bool) : Within out (client.simulateAndSubmit out contractId function signer dryRun) :=
  .bind (requireContractId_within _ _) fun _ => maybeHydrate_within _

theorem quoteRegistration_within (label : String) (years : UInt32) :
    Within out (client.quoteRegistration out label years) :=
  .bind (check_within _ _) fun _ => .bind (check_within _ _) fun _ => .bind (requireContractId_within _ _) fun _ _ =>
    .nowUnix .refl

theorem hydratedStatus_cases (status : SubmissionStatus) (answer : String) :
    (answer = "SUCCESS" ∧ hydratedStatus status answer = .confirmed) ∨
      (answer = "FAILED" ∧ hydratedStatus status answer = .failed) ∨ hydratedStatus status answer = status := by
  unfold hydratedStatus
  split
  · exact Or.inl ⟨rfl, rfl⟩
  · exact Or.inr (Or.inl ⟨rfl, rfl⟩)
  · exact Or.inr (Or.inr rfl)

/-! ## Submissions -/

/-- What the submission of a write that ran from `w` to `w'` says: whose it is, and nothing of the ledger the service did
    not answer meanwhile. -/
structure Reports (out : Outside ω) (client : XlmNsClient) (contractId signer passphrase : Option String) (dryRun : Bool)
    (w w' : ω) (s : TransactionSubmission) : Prop where
  contract   : s.contractId = contractId
  signer     : s.signer = signer
  passphrase : s.networkPassphrase = passphrase
  hash       : ∃ operation payload, s.txHash = generatedSubmissionHash out operation payload ∧
    parseSubmissionHash s.txHash = some (hashBytes out operation payload)
  simulated  : s.status = .simulated → dryRun = true
  submitted  : s.status = .submitted → dryRun = false
  confirmed  : s.status = .confirmed → ∃ txHash ledger, parseSubmissionHash s.txHash = some txHash ∧
    Polled out client txHash ledger "SUCCESS" w w'
  failed     : s.status = .failed → ∃ txHash ledger, parseSubmissionHash s.txHash = some txHash ∧
    Polled out client txHash ledger "FAILED" w w'

/-- The submissions among what an action returns report so. -/
def Makes (out : Outside ω) (client : XlmNsClient) (contractId signer passphrase : Option String) (dryRun : Bool)
    (g : α → Option TransactionSubmission) (x : Action ω α) : Prop :=
  ∀ w w' a s, x w = (.ok a, w') → g a = some s → Reports out client contractId signer passphrase dryRun w w' s

section Reporting

variable {contractId signer passphrase : Option String} {dryRun : Bool} {s s' : TransactionSubmission}
variable {x : Action ω α} {f : α → Action ω β} {g : β → Option TransactionSubmission}

theorem Reports.widen {v v' : ω} (h : Reports out client contractId signer passphrase dryRun v v' s)
    (hbefore : Leads out w v) (hafter : Leads out v' w') :
    Reports out client contractId signer passphrase dryRun w w' s := by
  refine { h with confirmed := fun hs => ?_, failed := fun hs => ?_ }
  · obtain ⟨txHash, ledger, hparse, hpolled⟩ := h.confirmed hs
    exact ⟨txHash, ledger, hparse, hpolled.widen hbefore hafter⟩
  · obtain ⟨txHash, ledger, hparse, hpolled⟩ := h.failed hs
    exact ⟨txHash, ledger, hparse, hpolled.widen hbefore hafter⟩

/-- A submission that was not polled for. -/
theorem Reports.fresh (dryRun : Bool) {operation payload : String} {submittedAt : UInt64} :
    Reports out client contractId signer passphrase dryRun w w'
      ⟨generatedSubmissionHash out operation payload, if dryRun then .simulated else .submitted, none, submittedAt,
        contractId, passphrase, signer⟩ where
  contract   := rfl
  signer     := rfl
  passphrase := rfl
  hash       := ⟨operation, payload, rfl, parse_generated out operation payload⟩
  simulated  := by cases dryRun <;> simp
  submitted  := by cases dryRun <;> simp
  confirmed  := by cases dryRun <;> simp
  failed     := by cases dryRun <;> simp

/-- Polling keeps what a submission reports. -/
theorem Reports.hydrate {v : ω} (h : Reports out client contractId signer passphrase dryRun w v s)
    (hbefore : Leads out w v) (hrun : client.maybeHydrateSubmission out s v = (.ok s', w')) :
    Reports out client contractId signer passphrase dryRun w w' s' := by
  obtain ⟨s₁, w₁, hspec, hleads, hcases⟩ := maybeHydrate_spec out client s v
  obtain ⟨hok, rfl⟩ := Prod.mk.inj (hspec.symm.trans hrun)
  obtain rfl := Except.ok.inj hok
  have hkept := h.widen .refl hleads
  rcases hcases with rfl | ⟨txHash, ledger, answer, hparse, hpolled, rfl⟩
  · exact hkept
  · have hanswered := hpolled.widen hbefore .refl
    rcases hydratedStatus_cases s.status answer with ⟨rfl, hstatus⟩ | ⟨rfl, hstatus⟩ | hstatus
    · exact {
        hkept with
        simulated := fun hs => by cases hstatus.symm.trans hs
        submitted := fun hs => by cases hstatus.symm.trans hs
        confirmed := fun _ => ⟨txHash, ledger, hparse, hanswered⟩
        failed    := fun hs => by cases hstatus.symm.trans hs }
    · exact {
        hkept with
        simulated := fun hs => by cases hstatus.symm.trans hs
        submitted := fun hs => by cases hstatus.symm.trans hs
        confirmed := fun hs => by cases hstatus.symm.trans hs
        failed    := fun _ => ⟨txHash, ledger, hparse, hanswered⟩ }
    · exact {
        hkept with
        simulated := fun hs => hkept.simulated (hstatus.symm.trans hs)
        submitted := fun hs => hkept.submitted (hstatus.symm.trans hs)
        confirmed := fun hs => hkept.confirmed (hstatus.symm.trans hs)
        failed    := fun hs => hkept.failed (hstatus.symm.trans hs) }

/-- What is done before does not matter, but for what it found out. -/
theorem Makes.bind (hx : Within out x)
    (h : ∀ a, (∃ u u', x u = (.ok a, u')) → Makes out client contractId signer passphrase dryRun g (f a)) :
    Makes out client contractId signer passphrase dryRun g (x >>= f) := by
  intro w w' b s hrun hg
  obtain ⟨a, v, hfirst, hrest⟩ := Action.bind_eq_ok.mp hrun
  have hleads := hx w
  rw [hfirst] at hleads
  exact (h a ⟨w, v, hfirst⟩ v w' b s hrest hg).widen hleads .refl

/-- A receipt carries its submission. -/
theorem Makes.map {k : α → β} (h : Makes out client contractId signer passphrase dryRun (fun a => g (k a)) x) :
    Makes out client contractId signer passphrase dryRun g (k <$> x) := by
  intro w w' b s hrun hg
  obtain ⟨a, hx, rfl⟩ := Action.map_eq_ok.mp hrun
  exact h w w' a s hx hg

theorem Makes.bind_pure {k : α → β} (h : Makes out client contractId signer passphrase dryRun (fun a => g (k a)) x) :
    Makes out client contractId signer passphrase dryRun g (x >>= fun a => pure (k a)) := by
  rw [bind_pure_comp]
  exact h.map

/-- A submission that is polled for once more. -/
theorem Makes.hydrate {x : Action ω TransactionSubmission} (hx : Within out x)
    (h : Makes out client contractId signer passphrase dryRun some x) :
    Makes out client contractId signer passphrase dryRun some (x >>= client.maybeHydrateSubmission out) := by
  intro w w' s' s hrun hs
  obtain rfl := Option.some.inj hs
  obtain ⟨s₀, v, hfirst, hrest⟩ := Action.bind_eq_ok.mp hrun
  have hleads := hx w
  rw [hfirst] at hleads
  exact (h w v s₀ s₀ hfirst rfl).hydrate hleads hrest

/-- The submissions that are built in place. -/
theorem makes_submission {operation payload : String} :
    Makes out client contractId signer client.networkPassphrase false some
      (client.maybeHydrateSubmission out (client.submission out operation payload contractId signer)) := by
  intro w w' s' s hrun hs
  obtain rfl := Option.some.inj hs
  exact (Reports.fresh false).hydrate .refl hrun

theorem makes_simulateAndSubmit {function : String} :
    Makes out client contractId signer client.networkPassphrase dryRun some
      (client.simulateAndSubmit out contractId function signer dryRun) := by
  refine .bind (requireContractId_within _ _) ?_
  rintro id ⟨_, _, hid⟩ w w' s' s hrun hs
  obtain ⟨rfl, _, _⟩ := requireContractId_eq_ok.mp hid
  obtain rfl := Option.some.inj hs
  exact (Reports.fresh dryRun).hydrate .refl hrun

theorem makes_subdomainWrite {function account field : String} {named : List (String × String)} :
    Makes out client client.subdomainContractId (some account) client.networkPassphrase dryRun some
      (client.subdomainWrite out function named account field dryRun) := by
  refine .bind (verifyWriteNetwork_within _) fun _ _ => ?_
  refine .bind (forM_within (fun _ => check_within _ _) _) fun _ _ => ?_
  refine .bind (validateAccount_within _ _) fun _ _ => ?_
  exact makes_simulateAndSubmit.hydrate (simulateAndSubmit_within _ _ _ _)

theorem makes_nftWrite {function tokenId account field : String} :
    Makes out client client.nftContractId (some account) client.networkPassphrase dryRun some
      (client.nftWrite out function tokenId account field dryRun) := by
  refine .bind (check_within _ _) fun _ _ => ?_
  refine .bind (validateAccount_within _ _) fun _ _ => ?_
  exact makes_simulateAndSubmit.hydrate (simulateAndSubmit_within _ _ _ _)

/-- A check of the network that passes has a passphrase to compare. -/
theorem configured_of_verified {u : Unit} (h : client.verifyWriteNetwork out w = (.ok u, w')) :
    ∃ configured, client.networkPassphrase = some configured := by
  cases hpassphrase : client.networkPassphrase with
  | some configured => exact ⟨configured, rfl⟩
  | none =>
      rw [verifyWriteNetwork_unconfigured hpassphrase] at h
      cases (Prod.mk.inj h).1

theorem rpcContext_eq_ok {p : String} (h : client.rpcContext out w = (.ok p, w')) :
    p = client.networkPassphrase.getD "" := by
  unfold XlmNsClient.rpcContext at h
  cases hclient : out.newClient client.rpcUrl with
  | some e =>
      rw [hclient] at h
      exact absurd h Action.throw_ne_ok
  | none =>
      rw [hclient] at h
      exact (Action.pure_eq_ok.mp h).1.symm

theorem rpcContext_within : Within out (client.rpcContext out) := by
  unfold XlmNsClient.rpcContext
  split
  · exact .throw _
  · exact .pure _

theorem makes_auctionSubmission {operation : String} {configured : String}
    (hconfigured : client.networkPassphrase = some configured) :
    Makes out client client.auctionContractId signer client.networkPassphrase false some
      (client.auctionSubmission out operation signer) := by
  refine .bind rpcContext_within ?_
  rintro passphrase ⟨_, _, hcontext⟩ w w' s' s hrun hs
  obtain ⟨rfl, _⟩ := Action.pure_eq_ok.mp hrun
  obtain rfl := Option.some.inj hs
  have hpassphrase : some passphrase = client.networkPassphrase := by
    rw [rpcContext_eq_ok hcontext, hconfigured, Option.getD_some]
  rw [← hpassphrase]
  exact Reports.fresh false

end Reporting

/-! ## What each write submits -/

/-- The contract a write names. -/
def Write.contractId (client : XlmNsClient) : Write → Option String
  | .setTextRecord .. | .setTextRecords .. => client.resolverContractId
  | .register .. | .renew .. | .loadReservedManifest .. => client.registrarContractId
  | .transfer .. => client.registryContractId
  | .registerParent .. | .addController .. | .createSubdomain .. | .transferSubdomain .. => client.subdomainContractId
  | .mintNft .. | .approveNft .. | .transferNft .. => client.nftContractId
  | .createAuction .. | .bidAuction .. | .settleAuction .. => client.auctionContractId
  | .registerChain .. => client.bridgeContractId
  | .simulateAndSubmit contractId .. => contractId

/-- The writes of subdomains and tokens are signed by the account they name. -/
def Write.signer : Write → Option String
  | .setTextRecord _ _ _ signer | .setTextRecords _ signer | .register _ _ _ signer | .renew _ _ signer
  | .transfer _ _ signer | .createAuction _ _ _ _ _ signer | .bidAuction _ _ signer | .settleAuction _ signer
  | .loadReservedManifest _ signer | .simulateAndSubmit _ _ signer _ => signer
  | .registerParent _ account _ | .addController _ account _ | .createSubdomain _ _ account _
  | .transferSubdomain _ account _ | .mintNft _ account _ | .approveNft _ account _ | .transferNft _ account _ =>
      some account
  | .registerChain _ => none

/-- The write is only simulated. -/
def Write.dryRun : Write → Bool
  | .registerParent _ _ dryRun | .addController _ _ dryRun | .createSubdomain _ _ _ dryRun
  | .transferSubdomain _ _ dryRun | .mintNft _ _ dryRun | .approveNft _ _ dryRun | .transferNft _ _ dryRun
  | .simulateAndSubmit _ _ _ dryRun => dryRun
  | _ => false

/-- `load_reserved_manifest` says the empty passphrase if none is configured. -/
def Write.passphrase (client : XlmNsClient) : Write → Option String
  | .loadReservedManifest .. => some (client.networkPassphrase.getD "")
  | _ => client.networkPassphrase

/-- Every write makes submissions of its own. -/
theorem makes_submit (out : Outside ω) (client : XlmNsClient) (c : Write) :
    Makes out client (c.contractId client) c.signer (c.passphrase client) c.dryRun id (client.submit out c) := by
  cases c with
  | setTextRecord name key value signer =>
      refine .map (.bind (verifyWriteNetwork_within _) fun _ _ => ?_)
      refine .bind (check_within _ _) fun _ _ => .bind (check_within _ _) fun _ _ => ?_
      cases value with
      | none => exact makes_submission
      | some value => exact .bind (check_within _ _) fun _ _ => makes_submission
  | setTextRecords name signer => exact .map (.bind (check_within _ _) fun _ _ => makes_submission)
  | register label owner durationYears signer =>
      refine .map (.bind (check_within _ _) fun _ _ => .bind (check_within _ _) fun _ _ => ?_)
      refine .bind (check_within _ _) fun _ _ => .bind (requireContractId_within _ _) fun _ _ => ?_
      refine .bind (verifyWriteNetwork_within _) fun _ _ => .bind (quoteRegistration_within _ _) fun _ _ => ?_
      exact .bind_pure makes_submission
  | renew name additionalYears signer =>
      refine .map (.bind (check_within _ _) fun _ _ => .bind (check_within _ _) fun _ _ => ?_)
      refine .bind (requireContractId_within _ _) fun _ _ => .bind (verifyWriteNetwork_within _) fun _ _ => ?_
      exact .bind_pure makes_submission
  | transfer name newOwner signer =>
      refine .map (.bind (verifyWriteNetwork_within _) fun _ _ => .bind (check_within _ _) fun _ _ => ?_)
      refine .bind (check_within _ _) fun _ _ => .bind (validateAccount_within _ _) fun _ _ => ?_
      exact makes_submission
  | registerParent parent owner dryRun => exact .map makes_subdomainWrite
  | addController parent controller dryRun => exact .map makes_subdomainWrite
  | createSubdomain label parent owner dryRun => exact .map makes_subdomainWrite
  | transferSubdomain fqdn newOwner dryRun => exact .map makes_subdomainWrite
  | mintNft tokenId owner dryRun => exact .map makes_nftWrite
  | approveNft tokenId operator dryRun => exact .map makes_nftWrite
  | transferNft tokenId newOwner dryRun => exact .map makes_nftWrite
  | createAuction name asset treasury reservePrice durationSeconds signer =>
      refine .map (.bind (verifyWriteNetwork_within _) ?_)
      rintro _ ⟨_, _, hverified⟩
      obtain ⟨configured, hconfigured⟩ := configured_of_verified hverified
      refine .bind (check_within _ _) fun _ _ => .bind (check_within _ _) fun _ _ => ?_
      refine .bind (check_within _ _) fun _ _ => .bind (check_within _ _) fun _ _ => ?_
      exact .bind (validateAccount_within _ _) fun _ _ => makes_auctionSubmission hconfigured
  | bidAuction name amount signer =>
      refine .map (.bind (verifyWriteNetwork_within _) ?_)
      rintro _ ⟨_, _, hverified⟩
      obtain ⟨configured, hconfigured⟩ := configured_of_verified hverified
      refine .bind (check_within _ _) fun _ _ => .bind (check_within _ _) fun _ _ => ?_
      exact makes_auctionSubmission hconfigured
  | settleAuction name signer =>
      refine .map (.bind (verifyWriteNetwork_within _) ?_)
      rintro _ ⟨_, _, hverified⟩
      obtain ⟨configured, hconfigured⟩ := configured_of_verified hverified
      exact .bind (check_within _ _) fun _ _ => makes_auctionSubmission hconfigured
  | loadReservedManifest labels signer =>
      refine .map (.bind (check_within _ _) fun _ _ => ?_)
      simp only [Write.contractId]
      cases hregistrar : client.registrarContractId with
      | none => exact fun _ _ _ _ hrun _ => absurd hrun Action.throw_ne_ok
      | some registrarId =>
          refine .bind rpcContext_within ?_
          rintro passphrase ⟨_, _, hcontext⟩ w w' s' s hrun hs
          obtain ⟨rfl, _⟩ := Action.pure_eq_ok.mp hrun
          obtain rfl := Option.some.inj hs
          rw [rpcContext_eq_ok hcontext]
          exact Reports.fresh false
  | registerChain chain => exact .map fun _ _ _ _ _ hnone => (nomatch hnone)
  | simulateAndSubmit contractId function signer dryRun => exact .map makes_simulateAndSubmit

/-- **What a write reports**: its own contract and signer, the configured passphrase, a hash of the computed form, and a
    status that is confirmed or failed only if the service said so of that hash while the write was running. A dry run is no
    exception: it is polled for like any other. -/
theorem submission_reports (out : Outside ω) (client : XlmNsClient) (c : Write) {s : TransactionSubmission}
    (h : client.submit out c w = (.ok (some s), w')) :
    Reports out client (c.contractId client) c.signer (c.passphrase client) c.dryRun w w' s :=
  makes_submit out client c w w' (some s) s h rfl

/-! ## A client that polls -/

namespace Polling

/-- A service that knows every transaction, in ledger 7. -/
def service : Outside Unit where
  newClient _                     := none
  getNetwork _ w                  := (.ok "Test SDF Network ; September 2015", w)
  getTransactionPolling _ _ _ w   := (.ok (some 7, "SUCCESS"), w)
  genRange _ w                    := (⟨0, UInt64.le_iff_toNat_le.mpr (Nat.zero_le _)⟩, w)
  sleep _ w                       := w
  nowUnix w                       := (1000, w)
  seed _ _                        := 42

/-- A client that is configured for the public network. -/
def mainnet : XlmNsClient where
  rpcUrl                 := "https://soroban-testnet.stellar.org"
  networkPassphrase      := some "Public Global Stellar Network ; September 2015"
  registryContractId     := none
  registrarContractId    := none
  resolverContractId     := none
  auctionContractId      := none
  bridgeContractId       := none
  subdomainContractId    := none
  nftContractId          := none
  retry                  := .default
  pollFinalStatus        := true
  transactionPollTimeout := 60000 * nanosPerMilli

/-- Text records go to the wrong network unseen, and are confirmed because the service says so. -/
theorem text_records_report : ∃ s, s.status = .confirmed ∧
    Reports service mainnet none none mainnet.networkPassphrase false () () s :=
  ⟨{ mainnet.submission service "set_text_records" "alice.xlm" none none with
      ledger := some 7, status := .confirmed }, rfl,
    submission_reports service mainnet (.setTextRecords "alice.xlm" none) (w := ()) (by rfl)⟩

end Polling

end XlmNs.Sdk
