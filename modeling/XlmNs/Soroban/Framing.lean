import Mathlib.Algebra.GroupWithZero.Nat
import Mathlib.Data.List.Induction
import XlmNs.Soroban.Env

/-!
# `Soroban.Framing` — messages with their length in front

`framed width` puts the length of a message before it, as a big-endian number of `width` bytes. What begins with a whole
message begins with one only (`splitFrame_iff`), so some bytes are made of messages, with a rest that does not hold another,
in one way (`Cuts.unique`).
-/

namespace Soroban

variable {width n : Nat} {bytes rest rest' message message' : Bytes} {messages messages' : List Bytes}

/-! ## Numbers -/

/-- The number some bytes spell, the most significant one first. -/
def ofBigEndian (bytes : Bytes) : Nat := bytes.foldl (fun n b => 256 * n + b.toNat) 0

/-- The last `width` bytes of a number. -/
def toBigEndian : Nat → Nat → Bytes
  | 0, _         => []
  | width + 1, n => toBigEndian width (n / 256) ++ [UInt8.ofNat n]

theorem ofBigEndian_snoc (bytes : Bytes) (b : UInt8) : ofBigEndian (bytes ++ [b]) = 256 * ofBigEndian bytes + b.toNat := by
  rw [ofBigEndian, List.foldl_append]
  rfl

@[simp] theorem length_toBigEndian (width n : Nat) : (toBigEndian width n).length = width := by
  induction width generalizing n with
  | zero          => rfl
  | succ width ih => rw [toBigEndian, List.length_append, ih, List.length_singleton]

theorem ofBigEndian_toBigEndian (h : n < 256 ^ width) : ofBigEndian (toBigEndian width n) = n := by
  induction width generalizing n with
  | zero          =>
      obtain rfl : n = 0 := by omega
      rfl
  | succ width ih =>
      have hhigh : n / 256 < 256 ^ width := by
        apply Nat.div_lt_of_lt_mul
        rwa [Nat.mul_comm, ← Nat.pow_succ]
      rw [toBigEndian, ofBigEndian_snoc, ih hhigh, UInt8.toNat_ofNat']
      exact Nat.div_add_mod n 256

theorem toBigEndian_ofBigEndian (bytes : Bytes) : toBigEndian bytes.length (ofBigEndian bytes) = bytes := by
  induction bytes using List.reverseRecOn with
  | nil               => rfl
  | append_singleton bytes b ih =>
      have hb := b.toNat_lt
      have hhigh : (256 * ofBigEndian bytes + b.toNat) / 256 = ofBigEndian bytes := by omega
      have hlow : UInt8.ofNat (256 * ofBigEndian bytes + b.toNat) = b := by
        apply UInt8.toNat.inj
        rw [UInt8.toNat_ofNat']
        omega
      rw [List.length_append, List.length_singleton, ofBigEndian_snoc, toBigEndian, hhigh, hlow, ih]

theorem ofBigEndian_lt (bytes : Bytes) : ofBigEndian bytes < 256 ^ bytes.length := by
  induction bytes using List.reverseRecOn with
  | nil               => exact Nat.one_pos
  | append_singleton bytes b ih =>
      have hb := b.toNat_lt
      rw [List.length_append, List.length_singleton, ofBigEndian_snoc, Nat.pow_succ]
      omega

/-! ## Messages -/

/-- A message behind its length. -/
def framed (width : Nat) (message : Bytes) : Bytes := toBigEndian width message.length ++ message

/-- The length of the message has `width` bytes. -/
def Fits (width : Nat) (message : Bytes) : Prop := message.length < 256 ^ width

/-- The first message, and what comes after it. -/
def splitFrame (width : Nat) (bytes : Bytes) : Option (Bytes × Bytes) :=
  let length := ofBigEndian (bytes.take width)
  if width ≤ bytes.length ∧ length ≤ (bytes.drop width).length then
    some ((bytes.drop width).take length, (bytes.drop width).drop length)
  else none

/-- **What begins with a whole message begins with no other.** -/
theorem splitFrame_iff :
    splitFrame width bytes = some (message, rest) ↔ Fits width message ∧ bytes = framed width message ++ rest := by
  constructor
  · intro h
    unfold splitFrame at h
    dsimp only at h
    split at h
    · rename_i hwhole
      obtain ⟨hmessage, hrest⟩ := Prod.mk.inj (Option.some.inj h)
      have hheader : (bytes.take width).length = width := List.length_take_of_le hwhole.1
      have hlength : message.length = ofBigEndian (bytes.take width) := by
        rw [← hmessage]
        exact List.length_take_of_le hwhole.2
      have hspelled := toBigEndian_ofBigEndian (bytes.take width)
      have hlt := ofBigEndian_lt (bytes.take width)
      rw [hheader, ← hlength] at hspelled hlt
      refine ⟨hlt, ?_⟩
      rw [framed, hspelled, ← hmessage, ← hrest, List.append_assoc, List.take_append_drop, List.take_append_drop]
    · cases h
  · rintro ⟨hfits, rfl⟩
    have htake : (framed width message ++ rest).take width = toBigEndian width message.length := by
      rw [framed, List.append_assoc]
      exact List.take_left' (length_toBigEndian _ _)
    have hdrop : (framed width message ++ rest).drop width = message ++ rest := by
      rw [framed, List.append_assoc]
      exact List.drop_left' (length_toBigEndian _ _)
    have hwhole : width ≤ (framed width message ++ rest).length ∧ message.length ≤ (message ++ rest).length := by
      rw [framed, List.length_append, List.length_append, List.length_append, length_toBigEndian]
      omega
    unfold splitFrame
    dsimp only
    rw [htake, hdrop, ofBigEndian_toBigEndian hfits, if_pos hwhole, List.take_left, List.drop_left]

theorem splitFrame_framed (h : Fits width message) (rest : Bytes) :
    splitFrame width (framed width message ++ rest) = some (message, rest) :=
  splitFrame_iff.mpr ⟨h, rfl⟩

/-- A message is shorter than what it begins, by its length at least. -/
theorem splitFrame_length (h : splitFrame width bytes = some (message, rest)) :
    bytes.length = width + message.length + rest.length := by
  obtain ⟨-, rfl⟩ := splitFrame_iff.mp h
  rw [framed, List.length_append, List.length_append, length_toBigEndian]

/-! ## Successive messages -/

/-- The bytes are these messages and a rest that does not begin with another. -/
structure Cuts (width : Nat) (bytes : Bytes) (messages : List Bytes) (rest : Bytes) : Prop where
  joined : bytes = messages.flatMap (framed width) ++ rest
  fit    : ∀ message ∈ messages, Fits width message
  ended  : splitFrame width rest = none

theorem cuts_nil_iff : Cuts width bytes [] rest ↔ bytes = rest ∧ splitFrame width bytes = none := by
  constructor
  · rintro ⟨rfl, -, hover⟩
    exact ⟨rfl, hover⟩
  · rintro ⟨rfl, hover⟩
    exact ⟨rfl, nofun, hover⟩

theorem cuts_cons_iff :
    Cuts width bytes (message :: messages) rest ↔
      ∃ bytes', splitFrame width bytes = some (message, bytes') ∧ Cuts width bytes' messages rest := by
  constructor
  · rintro ⟨rfl, hfit, hover⟩
    have hmessage := hfit message List.mem_cons_self
    refine ⟨messages.flatMap (framed width) ++ rest, ?_, rfl, fun m hm => hfit m (List.mem_cons_of_mem _ hm), hover⟩
    rw [List.flatMap_cons, List.append_assoc]
    exact splitFrame_framed hmessage _
  · rintro ⟨bytes', hsplit, rfl, hfit, hover⟩
    obtain ⟨hmessage, rfl⟩ := splitFrame_iff.mp hsplit
    refine ⟨?_, List.forall_mem_cons.mpr ⟨hmessage, hfit⟩, hover⟩
    rw [List.flatMap_cons, List.append_assoc]

/-- **Bytes are made of messages in one way.** -/
theorem Cuts.unique (h : Cuts width bytes messages rest) (h' : Cuts width bytes messages' rest') :
    messages = messages' ∧ rest = rest' := by
  induction messages generalizing bytes messages' with
  | nil =>
      obtain ⟨rfl, hover⟩ := cuts_nil_iff.mp h
      cases messages' with
      | nil => exact ⟨rfl, (cuts_nil_iff.mp h').1⟩
      | cons message messages' =>
          obtain ⟨_, hsplit, -⟩ := cuts_cons_iff.mp h'
          exact absurd (hover.symm.trans hsplit) (nofun)
  | cons message messages ih =>
      obtain ⟨bytes₁, hsplit, hrest⟩ := cuts_cons_iff.mp h
      cases messages' with
      | nil =>
          obtain ⟨-, hover⟩ := cuts_nil_iff.mp h'
          exact absurd (hover.symm.trans hsplit) (nofun)
      | cons message' messages' =>
          obtain ⟨bytes₂, hsplit', hrest'⟩ := cuts_cons_iff.mp h'
          obtain ⟨rfl, rfl⟩ := Prod.mk.inj (Option.some.inj (hsplit.symm.trans hsplit'))
          obtain ⟨rfl, rfl⟩ := ih hrest hrest'
          exact ⟨rfl, rfl⟩

end Soroban
