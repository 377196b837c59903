import XlmNs.Resolver.Mappings

/-!
# `Resolver.Correctness.ReverseAgreement` — does every address in use lead back to a name?

With no registry configured, `reverse(a)` should find a name that has the address `a` whenever there is one
(`Agree`). All names with an address share its reverse slot. An edit that moves one of them away empties the slot,
and the others are no longer found. `reverse_agreement_iff`: the agreement holds throughout a run iff no edit in it
leaves an address that another name has (`LeavesOwnAddresses`).
-/

namespace XlmNs.Resolver

open Soroban

variable {ω : Type} {out : Outside ω} {env : Env} {s s' : State} {w : ω} {a : Bytes}

/-! ## What a reverse lookup returns -/

/-- Without a registry, a name that has the address matches. -/
theorem matches_of_address (out : Outside ω) (env : Env) (w : ω) {n : Bytes} (hregistry : s.registry = none)
    (ha : addressOf s n = some a) :
    reverseLookupMatchesCurrentOwner out env s w n a = true := by
  obtain ⟨record, hrecord, haddress⟩ := Option.bind_eq_some_iff.mp ha
  simp [reverseLookupMatchesCurrentOwner, hrecord, haddress, hregistry]

/-- A lookup through a mapping that is not outdated returns it, and changes nothing. -/
theorem reverseThrough_eq {mapping : Store Bytes Bytes} (hregistry : s.registry = none)
    (h : ∀ n, mapping a = some n → addressOf s n = some a) :
    reverseThrough out env s w mapping a = (s, mapping a) := by
  unfold reverseThrough
  cases hn : mapping a with
  | none => rfl
  | some n =>
      have hmatch := matches_of_address out env w hregistry (h n hn)
      simp only [hmatch, if_true]

/-- **Without a registry `reverse` reads the primary slot, then the reverse slot**, and changes neither. -/
theorem reverse_eq (hregistry : s.registry = none) (hs : Linked s) :
    reverse out env s w a = (s, (s.primary a).or (s.reverse a)) := by
  unfold reverse
  rw [reverseThrough_eq hregistry (hs.primary a)]
  cases hp : s.primary a with
  | some n => rfl
  | none => exact reverseThrough_eq hregistry (hs.reverse a)

theorem batchReverse_state (hregistry : s.registry = none) (hs : Linked s) (addresses : List Bytes) :
    (batchReverse out env s w addresses).1 = s := by
  induction addresses with
  | nil => rfl
  | cons address addresses ih =>
      show (batchReverse out env (reverse out env s w address).1 w addresses).1 = s
      rw [reverse_eq hregistry hs]
      exact ih

/-- Without a registry no mapping is ever outdated, so nothing is cleaned up. -/
theorem cleanup_eq {c : Call} (hregistry : s.registry = none) (hs : Linked s) (hc : c.isCleanup = true)
    (h : step out w s ⟨env, c⟩ = .ok s') : s' = s := by
  cases c with
  | reverse address =>
      obtain rfl := pure_eq_ok.mp h
      rw [reverse_eq hregistry hs]
  | batchReverse addresses =>
      obtain rfl := pure_eq_ok.mp h
      exact batchReverse_state hregistry hs addresses
  | clearReverseRecord name previousOwner =>
      -- this entrypoint is the registry's
      simp only [step, clearReverseRecord, bind_eq_ok, invoke_eq_ok] at h
      obtain ⟨_, hsome, _⟩ := h
      cases hregistry.symm.trans hsome
  | _ => cases hc

/-! ## The agreement -/

/-- **Forward/reverse agreement**: an address leads back to a name that has it iff there is such a name. -/
def Agree (out : Outside ω) (s : State) : Prop :=
  ∀ env w a, (∃ m, (reverse out env s w a).2 = some m ∧ addressOf s m = some a) ↔ ∃ n, addressOf s n = some a

/-- Every address in use has a reverse slot. -/
def Served (s : State) : Prop := ∀ n a, addressOf s n = some a → ∃ m, s.reverse a = some m

/-- In an agreeing state no address in use has lost both slots. -/
theorem Agree.slot {n : Bytes} (h : Agree out s) (hregistry : s.registry = none) (hs : Linked s) (env : Env)
    (w : ω) (ha : addressOf s n = some a) : ∃ m, (s.primary a).or (s.reverse a) = some m := by
  obtain ⟨m, hm, _⟩ := (h env w a).mpr ⟨n, ha⟩
  rw [reverse_eq hregistry hs] at hm
  exact ⟨m, hm⟩

/-- **A state that serves every address in use agrees.** -/
theorem Served.agree (h : Served s) (hregistry : s.registry = none) (hs : Linked s) : Agree out s := by
  intro env w a
  rw [reverse_eq hregistry hs]
  constructor
  · rintro ⟨m, _, ha⟩
    exact ⟨m, ha⟩
  · rintro ⟨n, ha⟩
    cases hp : s.primary a with
    | some m => exact ⟨m, rfl, hs.primary a m hp⟩
    | none =>
        obtain ⟨m, hm⟩ := h n a ha
        exact ⟨m, hm, hs.reverse a m hm⟩

/-! ## One step -/

/-- The state after a transaction agrees, unless a registry is configured. -/
def AgreesAfter (out : Outside ω) (s : State) (i : Invocation ω) : Prop :=
  (exec (stepIn out) s i).registry = none → Agree out (exec (stepIn out) s i)

/-- The edit leaves no address for good that another name has. -/
def Spares (s : State) (q : Relink) : Prop :=
  ∀ a ∈ q.gone, q.final ≠ some a → ∀ n, n ≠ q.name → addressOf s n ≠ some a

/-- An accepted edit, no registry configured, leaves only addresses that no other name has. -/
def LeavesOwnAddresses (out : Outside ω) (s : State) (i : Invocation ω) : Prop :=
  s.registry = none → ∀ q, i.tx.call.relink s = some q → (∃ s', stepIn out s i = .ok s') → Spares s q

/-- An address that lost its reverse slot for good lost its primary slot too. -/
theorem Relinks.lost {q : Relink} (h : Relinks q s s') (hgone : a ∈ q.gone) (hfinal : q.final ≠ some a) :
    s'.primary a = none ∧ s'.reverse a = none := by
  constructor
  · rw [h.primary a, if_pos hgone]
  · rcases h.reverse a with ⟨hf, _⟩ | ⟨_, _, hnone⟩ | ⟨hnot, _, _⟩
    · exact absurd hf hfinal
    · exact hnone
    · exact absurd hgone hnot

/-- **An edit keeps every address in use served if it spares the others' addresses.** -/
theorem Served.relink {q : Relink} (h : Served s) (hr : Relinks q s s') (hspares : Spares s q) :
    Served s' := by
  intro n a ha
  by_cases hn : n = q.name
  · subst hn
    have hfinal : q.final = some a := hr.address.symm.trans ha
    rcases hr.reverse a with ⟨_, hlinked⟩ | ⟨_, hne, _⟩ | ⟨_, hsame, hold⟩
    · exact ⟨_, hlinked⟩
    · exact absurd hfinal hne
    · obtain ⟨m, hm⟩ := h q.name a (hold hfinal)
      exact ⟨m, hsame.trans hm⟩
  · have hbefore : addressOf s n = some a := (addressOf_congr (hr.forward n hn)).symm.trans ha
    obtain ⟨m, hm⟩ := h n a hbefore
    rcases hr.reverse a with ⟨_, hlinked⟩ | ⟨hgone, hne, _⟩ | ⟨_, hsame, _⟩
    · exact ⟨_, hlinked⟩
    · exact absurd hbefore (hspares a hgone hne n hn)
    · exact ⟨m, hsame.trans hm⟩

/-- **A committed transaction keeps every address in use served if its edit spares the others'.** -/
theorem Served.step {c : Call} (h : Served s) (hregistry : s.registry = none) (hs : Linked s)
    (hstep : Resolver.step out w s ⟨env, c⟩ = .ok s') (hspares : ∀ q, c.relink s = some q → Spares s q) :
    Served s' := by
  cases step_effect hstep with
  | quiet _ haddress hreverse _ =>
      intro n a ha
      rw [haddress] at ha
      rw [hreverse]
      exact h n a ha
  | relink hcall hr => exact h.relink hr (hspares _ hcall)
  | setPrimary _ hforward hreverse _ =>
      intro n a ha
      rw [addressOf_congr (congrFun hforward n)] at ha
      rw [hreverse]
      exact h n a ha
  | cleanup hcall _ _ _ =>
      rw [cleanup_eq hregistry hs hcall hstep]
      exact h

/-- An edit does not touch the configuration. -/
theorem relink_registry {c : Call} {q : Relink} (h : step out w s ⟨env, c⟩ = .ok s')
    (hq : c.relink s = some q) : s'.registry = s.registry := by
  cases hrequest : c.request with
  | some r => exact (write_spec h hrequest).1.registry
  | none =>
      cases c with
      | setRecord | setAddress | removeRecord | batchSet => cases hrequest
      | _ => cases hq

/-- What holds along a run that agrees throughout. -/
structure Consistent (s : State) : Prop where
  linked : Linked s
  served : s.registry = none → Served s

/-- The configuration is never taken back. -/
theorem registry_of_exec {i : Invocation ω} (h : (exec (stepIn out) s i).registry = none) :
    s.registry = none := by
  by_contra hsome
  obtain ⟨registry, hregistry⟩ := Option.ne_none_iff_exists'.mp hsome
  rcases exec_cases (stepIn out) s i with hok | ⟨_, hsame⟩
  · cases (step_registry hok hregistry).symm.trans h
  · rw [hsame] at h
    exact hsome h

theorem Consistent.exec {i : Invocation ω} (h : Consistent s) (hleaves : LeavesOwnAddresses out s i) :
    Consistent (exec (stepIn out) s i) := by
  rcases exec_cases (stepIn out) s i with hok | ⟨_, hsame⟩
  · refine ⟨(preserves_linked out).exec h.linked i, ?_⟩
    intro hafter
    have hregistry : s.registry = none := registry_of_exec hafter
    exact (h.served hregistry).step hregistry h.linked hok (fun q hq => hleaves hregistry q hq ⟨_, hok⟩)
  · rw [hsame]
    exact h

/-- **One step, exactly.** -/
theorem agreesAfter_iff {i : Invocation ω} (h : Consistent s) :
    AgreesAfter out s i ↔ LeavesOwnAddresses out s i := by
  constructor
  · obtain ⟨w, env, c⟩ := i
    rintro hagrees hregistry q hq ⟨s', hok⟩ a hgone hfinal n hn ha
    rw [AgreesAfter, exec_ok hok] at hagrees
    have hafter : s'.registry = none := (relink_registry hok hq).trans hregistry
    have hlinked : Linked s' := preserves_linked out s _ s' h.linked hok
    have hr : Relinks q s s' := (step_effect hok).relinks hq
    obtain ⟨hprimary, hreverse⟩ := hr.lost hgone hfinal
    have hn' : addressOf s' n = some a := (addressOf_congr (hr.forward n hn)).trans ha
    obtain ⟨m, hm⟩ := (hagrees hafter).slot hafter hlinked env w hn'
    rw [hprimary, hreverse] at hm
    cases hm
  · intro hleaves hafter
    have hconsistent := h.exec hleaves
    exact (hconsistent.served hafter).agree hafter hconsistent.linked

/-! ## Whole runs -/

theorem consistent_empty : Consistent State.empty := by
  refine ⟨linked_empty, ?_⟩
  intro _ n a ha
  cases ha

/-- **With no registry configured, forward and reverse resolution agree throughout a run iff no edit in it leaves
    an address that another name has.** Anyone may call anything, in any order. -/
theorem reverse_agreement_iff (out : Outside ω) (is : List (Invocation ω)) :
    Along (stepIn out) (AgreesAfter out) State.empty is ↔
      Along (stepIn out) (LeavesOwnAddresses out) State.empty is :=
  along_iff (P := AgreesAfter out) (Q := LeavesOwnAddresses out) (fun _ _ h => agreesAfter_iff h)
    (fun _ _ h hagrees => h.exec ((agreesAfter_iff h).mp hagrees)) consistent_empty

/-! ## An address two names share -/

namespace LostReverse

open Cast

/-- Alice links her name to her address. -/
def link : Invocation Unit := ⟨(), ⟨1000, [alice], none⟩, .setRecord aliceXlm alice alice.strkey 1000⟩

/-- Bob links his to the same. -/
def share : Invocation Unit := ⟨(), ⟨2000, [bob], none⟩, .setRecord bobXlm bob alice.strkey 2000⟩

/-- Bob removes his record. -/
def leave : Invocation Unit := ⟨(), ⟨3000, [bob], none⟩, .removeRecord bobXlm bob⟩

/-- **The agreement fails on the code**: Bob links his name to Alice's address and removes it again. Alice's name
    still has the address, but the address no longer leads to any name. -/
theorem removal_hides_other_name :
    ¬ Along (stepIn nothingOutside) (AgreesAfter nothingOutside) State.empty [link, share, leave] := by
  intro h
  obtain ⟨_, _, hleave, _⟩ := h
  generalize hs : exec (stepIn nothingOutside) (exec (stepIn nothingOutside) (exec (stepIn nothingOutside)
    State.empty link) share) leave = s
  have hregistry : s.registry = none := by rw [← hs]; decide +kernel
  have hagree : Agree nothingOutside s := by
    rw [← hs]
    exact hleave (by rw [hs]; exact hregistry)
  have haddress : addressOf s aliceXlm = some alice.strkey := by rw [← hs]; decide +kernel
  have hlost : (reverse nothingOutside ⟨4000, [], none⟩ s () alice.strkey).2 = none := by
    rw [← hs]; decide +kernel
  obtain ⟨m, hm, _⟩ := (hagree ⟨4000, [], none⟩ () alice.strkey).mpr ⟨aliceXlm, haddress⟩
  cases hlost.symm.trans hm

end LostReverse

end XlmNs.Resolver
