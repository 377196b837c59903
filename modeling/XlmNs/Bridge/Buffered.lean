import XlmNs.Bridge.Correctness.Messages
import XlmNs.Soroban.Buffers

/-!
# `Bridge.Buffered` — the messages on their arrays

Each part of a message is copied into an array of 256 bytes and sliced back to its length. The copy is skipped for a part
that does not fit, the slice is not: `partBuffered` panics then, as `sorobanStrToBytes` says (`partBuffered_eq`). Names and
chains have been checked before and fit; an address and the resolver of a route have not (`message_panics_iff`).
-/

namespace XlmNs.Bridge

open Soroban

variable {s : State} {i : Input} {route : BridgeRoute}

/-- `soroban_str_to_bytes`: an array of zeros for a string that is longer. -/
def sorobanStrToArray (str : Bytes) : Result Bytes :=
  if str.length > 0 ∧ str.length ≤ 256 then copyFromSlice (zeros 256) 0 str.length str else .ok (zeros 256)

/-- `&soroban_str_to_bytes(part)[..part.len() as usize]` -/
def partBuffered (part : Bytes) : Result Bytes := do
  slice (← sorobanStrToArray part) 0 part.length

/-- `build_forward_gmp_message` on its buffers. -/
def buildForwardGmpMessageBuffered (name destinationChain resolver : Bytes) : Result Bytes :=
  return forwardGmpMessage (← partBuffered name) (← partBuffered destinationChain) (← partBuffered resolver)

/-- `build_reverse_gmp_message` on its buffers. -/
def buildReverseGmpMessageBuffered (address primaryName destinationChain resolver : Bytes) : Result Bytes :=
  return reverseGmpMessage (← partBuffered address) (← partBuffered primaryName) (← partBuffered destinationChain)
    (← partBuffered resolver)

/-- `build_message` on its buffers. -/
def buildMessageBuffered (s : State) (name chain : Bytes) : Result Bytes := do
  mapErr (validateFqdnSoroban name) .validation
  mapErr (validateChainNameSoroban chain) .validation
  let route ← okOr (s.route chain) .unsupportedChain
  buildForwardGmpMessageBuffered name route.destinationChain route.destinationResolver

/-- `build_reverse_message` on its buffers. -/
def buildReverseMessageBuffered (s : State) (address primaryName chain : Bytes) : Result Bytes := do
  require (address ≠ [] ∧ primaryName ≠ []) .validation
  mapErr (validateFqdnSoroban primaryName) .validation
  mapErr (validateChainNameSoroban chain) .validation
  let route ← okOr (s.route chain) .unsupportedChain
  buildReverseGmpMessageBuffered address primaryName route.destinationChain route.destinationResolver

/-- `build_message` or `build_reverse_message`, with their arrays. -/
def messageBuffered (s : State) : Input → Result Bytes
  | .forward name chain                => buildMessageBuffered s name chain
  | .reverse address primaryName chain => buildReverseMessageBuffered s address primaryName chain

/-! ## The arrays change nothing -/

/-- **A part comes back whole, or panics.** -/
theorem partBuffered_eq (part : Bytes) : partBuffered part = sorobanStrToBytes part := by
  unfold partBuffered sorobanStrToArray sorobanStrToBytes
  by_cases hfits : part.length ≤ 256
  · rw [if_pos hfits]
    cases part with
    | nil =>
        have hempty : (slice ([] ++ zeros 256) 0 ([] : Bytes).length : Result Bytes) = .ok [] := slice_done
        rw [if_neg fun h => Nat.lt_irrefl 0 h.1, ok_bind_outcome]
        rwa [List.nil_append] at hempty
    | cons b part =>
        have hpos : (b :: part).length > 0 := Nat.succ_pos part.length
        rw [if_pos ⟨hpos, hfits⟩, copyFromSlice_zeros hfits, ok_bind_outcome, slice_done]
  · -- the copy is skipped, and the slice is too long for the array
    rw [if_neg hfits, if_neg fun h => hfits h.2, ok_bind_outcome, slice, if_neg]
    rintro ⟨_, hlong⟩
    rw [zeros, List.length_replicate] at hlong
    exact hfits hlong

theorem messageBuffered_eq (s : State) (i : Input) : messageBuffered s i = message s i := by
  cases i with
  | forward name chain =>
      show buildMessageBuffered s name chain = buildMessage s name chain
      simp only [buildMessageBuffered, buildForwardGmpMessageBuffered, partBuffered_eq]
      rfl
  | reverse address primaryName chain =>
      show buildReverseMessageBuffered s address primaryName chain = buildReverseMessage s address primaryName chain
      simp only [buildReverseMessageBuffered, buildReverseGmpMessageBuffered, partBuffered_eq]
      rfl

/-! ## When they panic -/

/-- **The parts that nobody has measured fit**: the address, if there is one, and the resolver of the route. -/
structure Measured (i : Input) (route : BridgeRoute) : Prop where
  address  : ∀ address ∈ i.address, address.length ≤ 256
  resolver : route.destinationResolver.length ≤ 256

theorem length_chain {chain : Bytes} (h : validateChainNameSoroban chain = .ok ()) :
    chain.length ≤ maxChainNameLength := by
  unfold validateChainNameSoroban at h
  split at h
  · cases h
  · split at h
    · cases h
    · rename_i hfits
      exact Nat.not_lt.mp hfits

/-- The other parts of an accepted request fit, over a route of the contract. -/
theorem measured_iff (hrouted : Routed s) (h : Accepted s i route) :
    Measured i route ↔ ∀ field ∈ i.fields route, field.2.length ≤ 256 := by
  have hname : i.name.length ≤ 256 := (fits_name h.name).1
  have hchain : route.destinationChain.length ≤ 256 := by
    rw [(hrouted i.chain route h.route).1]
    exact Nat.le_trans (length_chain h.chain) (by decide)
  cases i with
  | forward name chain =>
      have htype : (ascii "xlm-ns-resolution").length ≤ 256 := by decide
      simp only [Input.fields, List.forall_mem_cons]
      constructor
      · rintro ⟨_, hresolver⟩
        exact ⟨htype, hname, hchain, hresolver, List.forall_mem_nil _⟩
      · rintro ⟨_, _, _, hresolver, _⟩
        refine ⟨?_, hresolver⟩
        intro _ hnone
        cases hnone
  | reverse address primaryName chain =>
      have htype : (ascii "xlm-ns-reverse-resolution").length ≤ 256 := by decide
      simp only [Input.fields, List.forall_mem_cons]
      constructor
      · rintro ⟨haddress, hresolver⟩
        exact ⟨htype, haddress address rfl, hname, hchain, hresolver, List.forall_mem_nil _⟩
      · rintro ⟨_, haddress, _, _, hresolver, _⟩
        refine ⟨?_, hresolver⟩
        rintro _ ⟨⟩
        exact haddress

/-- **A message panics** iff it is asked for over a route, past the checks, and a part that nobody has measured is longer
    than its array. -/
theorem message_panics_iff (hrouted : Routed s) :
    message s i = .error .trap ↔ ∃ route, Accepted s i route ∧ ¬ Measured i route := by
  constructor
  · intro htrap
    obtain ⟨route, haccepted⟩ : ∃ route, Accepted s i route := by
      refine accepted_iff.mpr ?_
      intro e herror
      cases htrap.symm.trans herror
    refine ⟨route, haccepted, ?_⟩
    intro hmeasured
    obtain ⟨field, hfield, hlong⟩ := (message_traps_iff haccepted).mp htrap
    exact Nat.not_le.mpr hlong ((measured_iff hrouted haccepted).mp hmeasured field hfield)
  · rintro ⟨route, haccepted, hlong⟩
    refine (message_traps_iff haccepted).mpr ?_
    by_contra hnone
    refine hlong ((measured_iff hrouted haccepted).mpr ?_)
    intro field hfield
    by_contra hfield'
    exact hnone ⟨field, hfield, Nat.not_le.mp hfield'⟩

end XlmNs.Bridge
