import XlmNs.Bridge.Contract
import XlmNs.Json.Rendering
import XlmNs.Soroban.Machine

/-!
# `Bridge.Correctness.Messages` — what a bridge message says

A message is documented as a JSON object of four or five strings. `Carries` says that a text decodes to exactly the
given fields. The code puts the fields between quotes as they are, so a message carries its fields iff the chain, the
resolver and the address fit the buffer, are UTF-8 and need no escape (`Sends`): `messages_faithful_iff`. Names are
validated and always do.
-/

namespace XlmNs.Bridge

open Soroban
open Json (Plain)

variable {s s' : State} {env : Env}

/-! ## Routes -/

/-- A route leads to the chain it is stored under, whose name is valid. -/
def Routed (s : State) : Prop :=
  ∀ chain route, s.route chain = some route →
    route.destinationChain = chain ∧ validateChainNameSoroban chain = .ok ()

/-- There are no routes at the start. -/
theorem routed_empty : Routed State.empty := by
  intro chain route h
  cases h

theorem Routed.of_eq (h : Routed s) (hroute : s'.route = s.route) : Routed s' := by
  unfold Routed
  rw [hroute]
  exact h

/-- Every route is stored under its own chain, and stays so. -/
theorem preserves_routed : Preserves step Routed := by
  rintro s ⟨env, c⟩ s' h hok
  cases c with
  | initializeContract admin =>
      simp only [step, initializeContract, bind_eq_ok, pure_eq_ok] at hok
      obtain ⟨_, _, rfl⟩ := hok
      exact h.of_eq rfl
  | upgrade migrationData =>
      simp only [step, upgrade, upgradeStoring_eq_ok] at hok
      obtain ⟨_, rfl⟩ := hok
      exact h.of_eq rfl
  | registerChain chain =>
      simp only [step, registerChain, bind_eq_ok, mapErr_eq_ok, pure_eq_ok] at hok
      obtain ⟨_, _, _, _, _, hchain, supported, _, _, _, rfl⟩ := hok
      -- the route written last is stored under its own chain
      intro other route hroute
      rcases Store.set_eq_some.mp hroute with ⟨rfl, rfl⟩ | ⟨_, hold⟩
      · exact ⟨rfl, hchain⟩
      · exact h other route hold
  | addSupportedChain chainId resolverAddress =>
      simp only [step, addSupportedChain, bind_eq_ok, pure_eq_ok] at hok
      obtain ⟨_, _, _, _, _, _, _, _, _, _, rfl⟩ := hok
      exact h.of_eq rfl
  | removeSupportedChain chainId =>
      simp only [step, removeSupportedChain, bind_eq_ok, pure_eq_ok] at hok
      obtain ⟨_, _, _, _, _, _, _, _, rfl⟩ := hok
      intro other route hroute
      exact h other route (Store.remove_eq_some.mp hroute).2

/-! ## Requests -/

/-- What a message is asked for. -/
inductive Input
  | forward (name chain : Bytes)
  | reverse (address primaryName chain : Bytes)

/-- The chain a message is for. -/
def Input.chain : Input → Bytes
  | .forward _ chain   => chain
  | .reverse _ _ chain => chain

/-- The name it carries. -/
def Input.name : Input → Bytes
  | .forward name _          => name
  | .reverse _ primaryName _ => primaryName

/-- The address it carries, if any. -/
def Input.address : Input → Option Bytes
  | .forward _ _         => none
  | .reverse address _ _ => some address

/-- `build_message` or `build_reverse_message` -/
def message (s : State) : Input → Result Bytes
  | .forward name chain                => buildMessage s name chain
  | .reverse address primaryName chain => buildReverseMessage s address primaryName chain

/-- The input passes the checks, and there is a route. -/
structure Accepted (s : State) (i : Input) (route : BridgeRoute) : Prop where
  address : ∀ address ∈ i.address, address ≠ []
  name    : validateFqdnSoroban i.name = .ok ()
  chain   : validateChainNameSoroban i.chain = .ok ()
  route   : s.route i.chain = some route

/-- The fields a message is documented to have. -/
def Input.fields (i : Input) (route : BridgeRoute) : List (Bytes × Bytes) :=
  match i with
  | .forward name _ =>
      [(ascii "type", ascii "xlm-ns-resolution"), (ascii "name", name),
       (ascii "destination_chain", route.destinationChain), (ascii "resolver", route.destinationResolver)]
  | .reverse address primaryName _ =>
      [(ascii "type", ascii "xlm-ns-reverse-resolution"), (ascii "address", address),
       (ascii "primary_name", primaryName), (ascii "destination_chain", route.destinationChain),
       (ascii "resolver", route.destinationResolver)]

/-- **The text carries the fields**: it is JSON for the object that has these members and no others, in any order. -/
def Carries (m : Bytes) (fields : List (Bytes × Bytes)) : Prop :=
  ∃ members, Json.Decodes m (Json.strings members) ∧ members.Perm fields

/-- The message is returned, and carries the input and the route. -/
def Faithful (s : State) (i : Input) (route : BridgeRoute) : Prop :=
  ∃ m, message s i = .ok m ∧ Carries m (i.fields route)

/-! ## The text of a message -/

/-- What is left of a part that is put into a message. -/
def pushed (bytes : Bytes) : Bytes := if bytes.toByteArray.IsValidUTF8 then bytes else []

/-- What is left of a field. -/
def pushedField (m : Bytes × Bytes) : Bytes × Bytes := (m.1, pushed m.2)

theorem pushUtf8_eq (buf bytes : Bytes) : pushUtf8 buf bytes = buf ++ pushed bytes := by
  unfold pushUtf8 pushed
  split <;> simp

theorem pushed_of_utf8 {bytes : Bytes} (h : bytes.toByteArray.IsValidUTF8) : pushed bytes = bytes := if_pos h

/-- **A message is its fields, rendered** without those that are not UTF-8. -/
theorem forwardGmpMessage_eq (name chain : Bytes) (route : BridgeRoute) :
    forwardGmpMessage name route.destinationChain route.destinationResolver
      = Json.render (((Input.forward name chain).fields route).map pushedField) := by
  have htype : pushed (ascii "xlm-ns-resolution") = ascii "xlm-ns-resolution" :=
    pushed_of_utf8 (Json.utf8_ascii (by decide))
  have hname : ascii "\x7b\"type\":\"xlm-ns-resolution\",\"name\":\""
      = Json.openBrace :: (Json.member (ascii "type", ascii "xlm-ns-resolution")
        ++ Json.comma :: Json.quote :: (ascii "name" ++ [Json.quote, Json.colon, Json.quote])) := by decide
  have hchain : ascii "\",\"destination_chain\":\""
      = Json.quote :: Json.comma :: Json.quote :: (ascii "destination_chain"
        ++ [Json.quote, Json.colon, Json.quote]) := by decide
  have hresolver : ascii "\",\"resolver\":\""
      = Json.quote :: Json.comma :: Json.quote :: (ascii "resolver" ++ [Json.quote, Json.colon, Json.quote]) := by
    decide
  have hclose : ascii "\"\x7d" = [Json.quote, Json.closeBrace] := by decide
  -- the fixed parts of the text are the quotes, names and separators that `render` writes
  simp only [forwardGmpMessage, pushUtf8_eq, hname, hchain, hresolver, hclose, Input.fields, List.map_cons,
    List.map_nil, pushedField, htype, Json.render, Json.body, Json.member, List.cons_append, List.append_assoc,
    List.nil_append]

theorem reverseGmpMessage_eq (address primaryName chain : Bytes) (route : BridgeRoute) :
    reverseGmpMessage address primaryName route.destinationChain route.destinationResolver
      = Json.render (((Input.reverse address primaryName chain).fields route).map pushedField) := by
  have htype : pushed (ascii "xlm-ns-reverse-resolution") = ascii "xlm-ns-reverse-resolution" :=
    pushed_of_utf8 (Json.utf8_ascii (by decide))
  have haddress : ascii "\x7b\"type\":\"xlm-ns-reverse-resolution\",\"address\":\""
      = Json.openBrace :: (Json.member (ascii "type", ascii "xlm-ns-reverse-resolution")
        ++ Json.comma :: Json.quote :: (ascii "address" ++ [Json.quote, Json.colon, Json.quote])) := by decide
  have hname : ascii "\",\"primary_name\":\""
      = Json.quote :: Json.comma :: Json.quote :: (ascii "primary_name"
        ++ [Json.quote, Json.colon, Json.quote]) := by decide
  have hchain : ascii "\",\"destination_chain\":\""
      = Json.quote :: Json.comma :: Json.quote :: (ascii "destination_chain"
        ++ [Json.quote, Json.colon, Json.quote]) := by decide
  have hresolver : ascii "\",\"resolver\":\""
      = Json.quote :: Json.comma :: Json.quote :: (ascii "resolver" ++ [Json.quote, Json.colon, Json.quote]) := by
    decide
  have hclose : ascii "\"\x7d" = [Json.quote, Json.closeBrace] := by decide
  simp only [reverseGmpMessage, pushUtf8_eq, haddress, hname, hchain, hresolver, hclose, Input.fields, List.map_cons,
    List.map_nil, pushedField, htype, Json.render, Json.body, Json.member, List.cons_append, List.append_assoc,
    List.nil_append]

/-- A part is copied, if the buffer holds it. -/
theorem sorobanStrToBytes_eq_ok {part bytes : Bytes} :
    sorobanStrToBytes part = .ok bytes ↔ part.length ≤ 256 ∧ bytes = part := by
  unfold sorobanStrToBytes
  split
  · rename_i hfits
    constructor
    · intro h
      cases h
      exact ⟨hfits, rfl⟩
    · rintro ⟨_, rfl⟩
      rfl
  · rename_i hlong
    exact ⟨fun h => (nomatch h), fun h => absurd h.1 hlong⟩

theorem sorobanStrToBytes_ne_error (part : Bytes) (e : BridgeError) : sorobanStrToBytes part ≠ .error (.error e) := by
  unfold sorobanStrToBytes
  split <;> simp

variable {i : Input} {route : BridgeRoute}

/-- The message of an input over a route, past the checks. -/
def built (route : BridgeRoute) : Input → Result Bytes
  | .forward name _ => buildForwardGmpMessage name route.destinationChain route.destinationResolver
  | .reverse address primaryName _ =>
      buildReverseGmpMessage address primaryName route.destinationChain route.destinationResolver

/-- The message for an accepted input. -/
theorem message_accepted (h : Accepted s i route) : message s i = built route i := by
  obtain ⟨haddress, hname, hchain, hroute⟩ := h
  cases i with
  | forward name chain =>
      simp only [Input.name, Input.chain] at hname hchain hroute
      show buildMessage s name chain = _
      unfold buildMessage
      rw [hname, hchain, hroute]
      rfl
  | reverse address primaryName chain =>
      simp only [Input.name, Input.chain] at hname hchain hroute
      -- an empty name is turned away by its own check too
      have hne : primaryName ≠ [] := by
        rintro rfl
        exact absurd hname (by decide)
      have hparts : (require (address ≠ [] ∧ primaryName ≠ []) .validation : Result Unit) = .ok () :=
        require_eq_ok.mpr ⟨haddress address rfl, hne⟩
      show buildReverseMessage s address primaryName chain = _
      unfold buildReverseMessage
      rw [hparts, hname, hchain, hroute]
      rfl

/-- **What is accepted** is what is not refused with an error. -/
theorem accepted_iff : (∃ route, Accepted s i route) ↔ ∀ e, message s i ≠ .error (.error e) := by
  constructor
  · rintro ⟨route, h⟩ e
    rw [message_accepted h]
    cases i with
    | forward name chain =>
        refine bind_ne_error (sorobanStrToBytes_ne_error _ e) fun _ => ?_
        refine bind_ne_error (sorobanStrToBytes_ne_error _ e) fun _ => ?_
        exact bind_ne_error (sorobanStrToBytes_ne_error _ e) fun _ => pure_ne_error
    | reverse address primaryName chain =>
        refine bind_ne_error (sorobanStrToBytes_ne_error _ e) fun _ => ?_
        refine bind_ne_error (sorobanStrToBytes_ne_error _ e) fun _ => ?_
        refine bind_ne_error (sorobanStrToBytes_ne_error _ e) fun _ => ?_
        exact bind_ne_error (sorobanStrToBytes_ne_error _ e) fun _ => pure_ne_error
  · intro h
    cases i with
    | forward name chain =>
        obtain ⟨_, hname, h⟩ := bind_not_refused mapErr_ne_trap h
        obtain ⟨_, hchain, h⟩ := bind_not_refused mapErr_ne_trap h
        obtain ⟨route, hroute, _⟩ := bind_not_refused okOr_ne_trap h
        exact ⟨route, fun _ haddress => (nomatch haddress), mapErr_eq_ok.mp hname, mapErr_eq_ok.mp hchain,
          okOr_eq_ok.mp hroute⟩
    | reverse address primaryName chain =>
        obtain ⟨_, hparts, h⟩ := bind_not_refused require_ne_trap h
        obtain ⟨_, hname, h⟩ := bind_not_refused mapErr_ne_trap h
        obtain ⟨_, hchain, h⟩ := bind_not_refused mapErr_ne_trap h
        obtain ⟨route, hroute, _⟩ := bind_not_refused okOr_ne_trap h
        refine ⟨route, fun _ haddress => ?_, mapErr_eq_ok.mp hname, mapErr_eq_ok.mp hchain, okOr_eq_ok.mp hroute⟩
        cases haddress
        exact (require_eq_ok.mp hparts).1

/-- **What an accepted request returns**: its message, if every part fits the buffer. -/
theorem message_eq_ok (h : Accepted s i route) {m : Bytes} :
    message s i = .ok m ↔
      (∀ field ∈ i.fields route, field.2.length ≤ 256) ∧ m = Json.render ((i.fields route).map pushedField) := by
  rw [message_accepted h]
  cases i with
  | forward name chain =>
      have htype : (ascii "xlm-ns-resolution").length ≤ 256 := by decide
      rw [← forwardGmpMessage_eq]
      simp only [built, buildForwardGmpMessage, bind_eq_ok, pure_eq_ok, sorobanStrToBytes_eq_ok, Input.fields,
        List.forall_mem_cons]
      constructor
      · rintro ⟨_, ⟨hname, rfl⟩, _, ⟨hchain, rfl⟩, _, ⟨hresolver, rfl⟩, rfl⟩
        exact ⟨⟨htype, hname, hchain, hresolver, List.forall_mem_nil _⟩, rfl⟩
      · rintro ⟨⟨_, hname, hchain, hresolver, _⟩, rfl⟩
        exact ⟨_, ⟨hname, rfl⟩, _, ⟨hchain, rfl⟩, _, ⟨hresolver, rfl⟩, rfl⟩
  | reverse address primaryName chain =>
      have htype : (ascii "xlm-ns-reverse-resolution").length ≤ 256 := by decide
      rw [← reverseGmpMessage_eq]
      simp only [built, buildReverseGmpMessage, bind_eq_ok, pure_eq_ok, sorobanStrToBytes_eq_ok, Input.fields,
        List.forall_mem_cons]
      constructor
      · rintro ⟨_, ⟨haddress, rfl⟩, _, ⟨hname, rfl⟩, _, ⟨hchain, rfl⟩, _, ⟨hresolver, rfl⟩, rfl⟩
        exact ⟨⟨htype, haddress, hname, hchain, hresolver, List.forall_mem_nil _⟩, rfl⟩
      · rintro ⟨⟨_, haddress, hname, hchain, hresolver, _⟩, rfl⟩
        exact ⟨_, ⟨haddress, rfl⟩, _, ⟨hname, rfl⟩, _, ⟨hchain, rfl⟩, _, ⟨hresolver, rfl⟩, rfl⟩

/-- An accepted request is not answered iff one of its parts is longer than the buffer. -/
theorem message_traps_iff (h : Accepted s i route) :
    message s i = .error .trap ↔ ∃ field ∈ i.fields route, 256 < field.2.length := by
  cases hm : message s i with
  | ok m =>
      obtain ⟨hfits, _⟩ := (message_eq_ok h).mp hm
      refine iff_of_false (fun htrap => by cases htrap) ?_
      rintro ⟨field, hfield, hlong⟩
      exact Nat.not_le.mpr hlong (hfits field hfield)
  | error x =>
      cases x with
      | error e => exact absurd hm (accepted_iff.mp ⟨route, h⟩ e)
      | trap =>
          refine iff_of_true rfl ?_
          by_contra hnone
          have hfits : ∀ field ∈ i.fields route, field.2.length ≤ 256 :=
            fun field hfield => Nat.not_lt.mp (fun hlong => hnone ⟨field, hfield, hlong⟩)
          cases hm.symm.trans ((message_eq_ok h).mpr ⟨hfits, rfl⟩)

/-! ## When a message is faithful -/

/-- The part fits the buffer, is UTF-8 and stands for itself. -/
def Fits (part : Bytes) : Prop := part.length ≤ 256 ∧ part.toByteArray.IsValidUTF8 ∧ Plain part

instance (part : Bytes) : Decidable (Fits part) := inferInstanceAs (Decidable (_ ∧ _ ∧ _))

/-- The parts of a message that are not checked byte by byte fit. -/
structure Sends (i : Input) (route : BridgeRoute) : Prop where
  chain    : Fits i.chain
  resolver : Fits route.destinationResolver
  address  : ∀ address ∈ i.address, Fits address

theorem length_pushed (bytes : Bytes) :
    (pushed bytes).length ≤ bytes.length ∧
      (bytes.length ≤ (pushed bytes).length → bytes.toByteArray.IsValidUTF8) := by
  unfold pushed
  split
  · rename_i hvalid
    exact ⟨Nat.le_refl _, fun _ => hvalid⟩
  -- what is not UTF-8 is dropped, and is not empty
  · refine ⟨Nat.zero_le _, fun hshort => ?_⟩
    have hnil : bytes = [] := List.eq_nil_of_length_eq_zero (Nat.le_zero.mp hshort)
    rw [hnil]
    exact ByteArray.isValidUTF8_empty

/-- What is left out makes the message shorter. -/
theorem size_pushed (fields : List (Bytes × Bytes)) :
    Json.size (fields.map pushedField) ≤ Json.size fields ∧
      (Json.size fields ≤ Json.size (fields.map pushedField) →
        ∀ field ∈ fields, field.2.toByteArray.IsValidUTF8) := by
  induction fields with
  | nil => exact ⟨Nat.le_refl _, fun _ => List.forall_mem_nil _⟩
  | cons field fields ih =>
      have hfirst := length_pushed field.2
      rw [List.map_cons, Json.size_cons, Json.size_cons, List.forall_mem_cons]
      simp only [pushedField]
      refine ⟨by omega, fun hshort => ⟨hfirst.2 (by omega), ih.2 (by omega)⟩⟩

/-- An ASCII byte that stands for itself. -/
def isPlainAscii (b : UInt8) : Bool := 32 ≤ b && b < 128 && b != Json.quote && b != Json.backslash

/-- Printable ASCII fits, if it is short enough. -/
theorem fits_of_ascii {part : Bytes} (hlength : part.length ≤ 256) (h : part.all isPlainAscii = true) : Fits part := by
  have hbytes : ∀ b ∈ part, (32 ≤ b ∧ b < 128) ∧ b ≠ Json.quote ∧ b ≠ Json.backslash := by
    intro b hb
    have hb := List.all_eq_true.mp h b hb
    simpa [isPlainAscii, and_assoc] using hb
  refine ⟨hlength, ?_, ?_⟩
  · apply Json.utf8_ascii
    exact List.all_eq_true.mpr (fun b hb => decide_eq_true (hbytes b hb).1.2)
  · intro b hb
    obtain ⟨⟨hcontrol, _⟩, hquote, hbackslash⟩ := hbytes b hb
    exact ⟨hquote, hbackslash, UInt8.not_lt.mpr hcontrol⟩

theorem isPlainAscii_labelByte {b : UInt8} (h : isLabelByte b = true ∨ b = dot) : isPlainAscii b = true := by
  simp only [isLabelByte, isAsciiLowercase, isAsciiDigit, hyphen, dot, Bool.or_eq_true, Bool.and_eq_true,
    decide_eq_true_eq, beq_iff_eq] at h
  simp only [isPlainAscii, Json.quote, Json.backslash, Bool.and_eq_true, decide_eq_true_eq, bne_iff_ne]
  grind

/-- **A name that was checked fits.** -/
theorem fits_name {name : Bytes} (h : validateFqdnSoroban name = .ok ()) : Fits name := by
  obtain ⟨hlength, hbytes⟩ := validateFqdn_ok h
  apply fits_of_ascii
  · exact Nat.le_trans hlength (by decide)
  · exact List.all_eq_true.mpr (fun b hb => isPlainAscii_labelByte (hbytes b hb))

/-- The names of the members fit. -/
theorem fits_fieldNames (i : Input) (route : BridgeRoute) : ∀ field ∈ i.fields route, Fits field.1 := by
  have htexts : ∀ text ∈ ["type", "name", "address", "primary_name", "destination_chain", "resolver"],
      Fits (ascii text) := by
    intro text htext
    apply fits_of_ascii
    · revert text
      decide
    · revert text
      decide
  intro field hfield
  cases i with
  | forward name chain =>
      simp only [Input.fields, List.mem_cons, List.not_mem_nil, or_false] at hfield
      rcases hfield with rfl | rfl | rfl | rfl <;> exact htexts _ (by decide)
  | reverse address primaryName chain =>
      simp only [Input.fields, List.mem_cons, List.not_mem_nil, or_false] at hfield
      rcases hfield with rfl | rfl | rfl | rfl | rfl <;> exact htexts _ (by decide)

/-- **Everything that is sent fits** iff what is not checked does. -/
theorem fits_fields_iff (hrouted : Routed s) (h : Accepted s i route) :
    (∀ field ∈ i.fields route, Fits field.2) ↔ Sends i route := by
  have hname := fits_name h.name
  have hchain := (hrouted i.chain route h.route).1
  cases i with
  | forward name chain =>
      have htype : Fits (ascii "xlm-ns-resolution") := fits_of_ascii (by decide) (by decide)
      simp only [Input.fields, List.forall_mem_cons]
      rw [hchain]
      constructor
      · rintro ⟨_, _, hchain, hresolver, _⟩
        exact ⟨hchain, hresolver, fun _ haddress => (nomatch haddress)⟩
      · rintro ⟨hchain, hresolver, _⟩
        exact ⟨htype, hname, hchain, hresolver, List.forall_mem_nil _⟩
  | reverse address primaryName chain =>
      have htype : Fits (ascii "xlm-ns-reverse-resolution") := fits_of_ascii (by decide) (by decide)
      simp only [Input.fields, List.forall_mem_cons]
      rw [hchain]
      constructor
      · rintro ⟨_, haddress, _, hchain, hresolver, _⟩
        refine ⟨hchain, hresolver, fun _ hmem => ?_⟩
        cases hmem
        exact haddress
      · rintro ⟨hchain, hresolver, haddress⟩
        exact ⟨htype, haddress address rfl, hname, hchain, hresolver, List.forall_mem_nil _⟩

theorem fields_cons (i : Input) (route : BridgeRoute) : ∃ field fields, i.fields route = field :: fields := by
  cases i with
  | forward name chain => exact ⟨_, _, rfl⟩
  | reverse address primaryName chain => exact ⟨_, _, rfl⟩

/-- **Fields that fit are sent as they are**, and read back in their order. -/
theorem message_of_fits (h : Accepted s i route) (hfits : ∀ field ∈ i.fields route, Fits field.2) :
    ∃ m, message s i = .ok m ∧ Json.Decodes m (Json.strings (i.fields route)) := by
  have hpushed : (i.fields route).map pushedField = i.fields route := by
    calc (i.fields route).map pushedField
        = (i.fields route).map id :=
          List.map_congr_left (fun field hfield => Prod.ext rfl (pushed_of_utf8 (hfits field hfield).2.1))
      _ = i.fields route := List.map_id _
  refine ⟨Json.render (i.fields route), ?_, ?_⟩
  · refine (message_eq_ok h).mpr ⟨fun field hfield => (hfits field hfield).1, ?_⟩
    rw [hpushed]
  · have hnames := fits_fieldNames i route
    obtain ⟨field, fields, heq⟩ := fields_cons i route
    rw [heq] at hfits hnames ⊢
    refine Json.decodes_render (fun m hm => ⟨(hnames m hm).2.2, (hfits m hm).2.2⟩) ?_
    exact Json.utf8_render (fun m hm => ⟨(hnames m hm).2.1, (hfits m hm).2.1⟩)

/-- **A message that carries its fields has fields that fit**: one that was cut, or holds an escape, would be too
    short for them. -/
theorem fits_of_faithful (h : Accepted s i route) (hfaithful : Faithful s i route) :
    ∀ field ∈ i.fields route, Fits field.2 := by
  obtain ⟨m, hm, members, hdecodes, hperm⟩ := hfaithful
  obtain ⟨hlength, rfl⟩ := (message_eq_ok h).mp hm
  -- the message is as long as its fields, or shorter where one was dropped, and no text is shorter than its fields
  have hsize : Json.size members = Json.size (i.fields route) := Json.size_perm hperm
  have hwritten : (Json.render ((i.fields route).map pushedField)).length
      = 1 + Json.size ((i.fields route).map pushedField) := by
    obtain ⟨field, fields, heq⟩ := fields_cons i route
    rw [heq]
    exact Json.length_render _ _
  have hread := hdecodes.length
  have hpushed := size_pushed (i.fields route)
  rw [hwritten, hsize] at hread
  have hutf8 := hpushed.2 (by omega)
  have hplain := hread.2 (by omega)
  intro field hfield
  exact ⟨hlength field hfield, hutf8 field hfield, (hplain field (hperm.mem_iff.mpr hfield)).2⟩

/-- **When a message is faithful.** -/
theorem faithful_iff (hrouted : Routed s) (h : Accepted s i route) : Faithful s i route ↔ Sends i route := by
  rw [← fits_fields_iff hrouted h]
  constructor
  · exact fits_of_faithful h
  · intro hfits
    obtain ⟨m, hm, hdecodes⟩ := message_of_fits h hfits
    exact ⟨m, hm, _, hdecodes, List.Perm.refl _⟩

variable {j : Input} {route' : BridgeRoute}

/-- The fields tell the input, the routes being known. -/
theorem fields_inj (hrouted : Routed s) (h : Accepted s i route) (h' : Accepted s j route')
    (heq : i.fields route = j.fields route') : i = j := by
  have hchain := (hrouted i.chain route h.route).1
  have hchain' := (hrouted j.chain route' h'.route).1
  cases i with
  | forward name chain =>
      cases j with
      | forward name' chain' =>
          simp only [Input.fields, Input.chain, List.cons.injEq, Prod.mk.injEq] at heq hchain hchain'
          obtain ⟨_, ⟨_, rfl⟩, ⟨_, hsame⟩, _⟩ := heq
          rw [← hchain, ← hchain', hsame]
      | reverse address' primaryName' chain' => exact absurd (congrArg List.length heq) (by simp [Input.fields])
  | reverse address primaryName chain =>
      cases j with
      | forward name' chain' => exact absurd (congrArg List.length heq) (by simp [Input.fields])
      | reverse address' primaryName' chain' =>
          simp only [Input.fields, Input.chain, List.cons.injEq, Prod.mk.injEq] at heq hchain hchain'
          obtain ⟨_, ⟨_, rfl⟩, ⟨_, rfl⟩, ⟨_, hsame⟩, _⟩ := heq
          rw [← hchain, ← hchain', hsame]

/-- **Inputs that are sent whole have messages of their own.** -/
theorem input_unique (hrouted : Routed s) (h : Accepted s i route) (h' : Accepted s j route') (hsends : Sends i route)
    (hsends' : Sends j route') (heq : message s i = message s j) : i = j := by
  obtain ⟨m, hm, hdecodes⟩ := message_of_fits h ((fits_fields_iff hrouted h).mpr hsends)
  obtain ⟨m', hm', hdecodes'⟩ := message_of_fits h' ((fits_fields_iff hrouted h').mpr hsends')
  obtain rfl : m = m' := Except.ok.inj (hm.symm.trans (heq.trans hm'))
  exact fields_inj hrouted h h' (Json.strings_inj (hdecodes.unique hdecodes'))

/-- **Messages are faithful iff what is not checked fits**: over whatever routes a run has registered, an accepted
    request returns JSON for exactly its fields iff the chain, the resolver and the address are at most 256 bytes of
    UTF-8 without quotes, backslashes and control bytes; and then no other such request returns the same. -/
theorem messages_faithful_iff (ts : List (Tx Call)) :
    (∀ i route, Accepted (run step State.empty ts) i route →
      (Faithful (run step State.empty ts) i route ↔ Sends i route)) ∧
    ∀ i j route route', Accepted (run step State.empty ts) i route → Accepted (run step State.empty ts) j route' →
      Sends i route → Sends j route' →
        message (run step State.empty ts) i = message (run step State.empty ts) j → i = j := by
  have hrouted : Routed (run step State.empty ts) := preserves_routed.run ts routed_empty
  constructor
  · intro i route h
    exact faithful_iff hrouted h
  · intro i j route route' h h' hsends hsends' heq
    exact input_unique hrouted h h' hsends hsends' heq

/-! ## A route to Base -/

namespace ToBase

open Cast

/-- The name of the chain. -/
def base : Bytes := ascii "base"

/-- The admin supports Base and opens the route. -/
def registered : List (Tx Call) :=
  [byAdmin (.initializeContract admin), byAdmin (.addSupportedChain base (ascii "0xbaseResolver")),
   byAdmin (.registerChain base)]

/-- The bridge after that. -/
def state : State := run step State.empty registered

/-- The route it has then. -/
def baseRoute : BridgeRoute := ⟨base, ascii "0xbaseResolver", []⟩

theorem registered_base : state.route base = some baseRoute := by decide +kernel

theorem accepted {address : Bytes} (hne : address ≠ []) : Accepted state (.reverse address aliceXlm base) baseRoute where
  address := by
    rintro _ ⟨⟩
    exact hne
  name    := show validateFqdnSoroban aliceXlm = .ok () by decide +kernel
  chain   := show validateChainNameSoroban base = .ok () by decide
  route   := registered_base

/-- An address without quotes is carried. -/
theorem plain_address_faithful : Faithful state (.reverse (ascii "GALICE") aliceXlm base) baseRoute := by
  have hbase : Fits base := by decide +kernel
  have hresolver : Fits (ascii "0xbaseResolver") := by decide +kernel
  have haddress : ∀ address ∈ some (ascii "GALICE"), Fits address := by decide +kernel
  exact ((messages_faithful_iff registered).1 _ _ (accepted (by decide))).mpr ⟨hbase, hresolver, haddress⟩

/-- An address that closes its quotes and names somebody else. -/
def evil : Bytes := ascii "GALICE\",\"primary_name\":\"evil.xlm"

/-- The members of its message. -/
def evilMembers : List (Bytes × Bytes) :=
  [(ascii "type", ascii "xlm-ns-reverse-resolution"), (ascii "address", ascii "GALICE"),
   (ascii "primary_name", ascii "evil.xlm"), (ascii "primary_name", aliceXlm), (ascii "destination_chain", base),
   (ascii "resolver", ascii "0xbaseResolver")]

/-- **Faithfulness fails on the code**: an address adds a member to its message; two addresses that are not UTF-8 share
    one; and an address that is too long has none. -/
theorem messages_not_faithful :
    (Accepted state (.reverse evil aliceXlm base) baseRoute ∧
      (∃ m, message state (.reverse evil aliceXlm base) = .ok m ∧ Json.Decodes m (Json.strings evilMembers)) ∧
      ¬ Faithful state (.reverse evil aliceXlm base) baseRoute) ∧
    (Accepted state (.reverse [255] aliceXlm base) baseRoute ∧ Accepted state (.reverse [254] aliceXlm base) baseRoute ∧
      message state (.reverse [255] aliceXlm base) = message state (.reverse [254] aliceXlm base)) ∧
    (Accepted state (.reverse (List.replicate 257 71) aliceXlm base) baseRoute ∧
      message state (.reverse (List.replicate 257 71) aliceXlm base) = .error .trap) := by
  have hevil : Accepted state (.reverse evil aliceXlm base) baseRoute := accepted (by decide)
  have hff : Accepted state (.reverse [255] aliceXlm base) baseRoute := accepted (by decide)
  have hfe : Accepted state (.reverse [254] aliceXlm base) baseRoute := accepted (by decide)
  have hlong : Accepted state (.reverse (List.replicate 257 71) aliceXlm base) baseRoute := accepted (by decide)
  refine ⟨⟨hevil, ⟨Json.render evilMembers, ?_, ?_⟩, ?_⟩, ⟨hff, hfe, ?_⟩, ⟨hlong, ?_⟩⟩
  · exact (message_eq_ok hevil).mpr ⟨by decide +kernel, by decide +kernel⟩
  · exact Json.decodes_render (by decide) (Json.utf8_ascii (by decide +kernel))
  · intro hfaithful
    have hfits : Fits evil :=
      fits_of_faithful hevil hfaithful (ascii "address", evil) (List.mem_cons_of_mem _ List.mem_cons_self)
    exact absurd hfits.2.2 (by decide)
  · -- neither address is UTF-8, and both are left out
    have hpushed : pushed [255] = pushed [254] := by decide +kernel
    have hsame : ((Input.reverse [255] aliceXlm base).fields baseRoute).map pushedField
        = ((Input.reverse [254] aliceXlm base).fields baseRoute).map pushedField := by
      simp only [Input.fields, List.map_cons, pushedField, hpushed]
    refine ((message_eq_ok hff).mpr ⟨by decide +kernel, rfl⟩).trans ?_
    exact ((message_eq_ok hfe).mpr ⟨by decide +kernel, congrArg Json.render hsame⟩).symm
  · have hlength : 256 < (List.replicate 257 (71 : UInt8)).length := by
      rw [List.length_replicate]
      decide
    refine (message_traps_iff hlong).mpr ⟨(ascii "address", List.replicate 257 71), ?_, hlength⟩
    exact List.mem_cons_of_mem _ List.mem_cons_self

end ToBase

end XlmNs.Bridge
