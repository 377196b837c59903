import XlmNs.Soroban.Env

/-!
# `Soroban.Buffers` — fixed byte buffers and their panics

Contract code copies host strings into arrays of a fixed size and works on slices of them. A range that does not lie in
its array, and a copy between slices of different lengths, panic; here they trap. The rules below are about buffers that
are filled from the left, `done ++ rest`: what has been written is read back by its length, and what is written next
goes where `done` ends.
-/

namespace Soroban

variable {ε α : Type} {buffer done rest source : Bytes} {i j : Nat}

/-- `[0u8; n]` -/
def zeros (n : Nat) : Bytes := List.replicate n 0

/-- `&buffer[i..j]` -/
def slice (buffer : Bytes) (i j : Nat) : Outcome ε Bytes :=
  if i ≤ j ∧ j ≤ buffer.length then .ok ((buffer.take j).drop i) else .error .trap

/-- `buffer[i] = b` -/
def setByte (buffer : Bytes) (i : Nat) (b : UInt8) : Outcome ε Bytes :=
  if i < buffer.length then .ok (buffer.set i b) else .error .trap

/-- `buffer[i..j].copy_from_slice(source)`, and `copy_into_slice` of a host string -/
def copyFromSlice (buffer : Bytes) (i j : Nat) (source : Bytes) : Outcome ε Bytes :=
  if i ≤ j ∧ j ≤ buffer.length ∧ source.length = j - i then .ok (buffer.take i ++ source ++ buffer.drop j)
  else .error .trap

/-- The result of a callee that does not panic, passed on by `?`. -/
def passOn (r : Except ε α) : Outcome ε α :=
  match r with
  | .ok a    => .ok a
  | .error e => .error (.error e)

theorem passOn_ne_trap {r : Except ε α} : passOn r ≠ .error .trap := by
  cases r with
  | ok a => exact fun h => nomatch h
  | error e => exact fun h => nomatch h

theorem passOn_eq_ok {r : Except ε α} {a : α} : passOn r = .ok a ↔ r = .ok a := by
  cases r with
  | ok b => exact ⟨fun h => congrArg Except.ok (Except.ok.inj h), fun h => congrArg Except.ok (Except.ok.inj h)⟩
  | error e => exact ⟨fun h => (nomatch h), fun h => (nomatch h)⟩

variable {β : Type}

theorem passOn_bind {r : Except ε α} {f : α → Except ε β} :
    passOn (r >>= f) = passOn r >>= fun a => passOn (f a) := by
  cases r with
  | ok a => rfl
  | error e => rfl

/-- `if c { return Err(e); }` -/
theorem passOn_refuse {c d : Prop} [Decidable c] [Decidable d] {e : ε} {f : α → Except ε β} {r : Except ε β}
    (h : d ↔ ¬ c) : passOn (if c then throw e >>= f else r) = require d e >>= fun _ => passOn r := by
  by_cases hc : c
  · rw [if_pos hc, require, if_neg (fun hd => h.mp hd hc)]
    rfl
  · rw [if_neg hc, require, if_pos (h.mpr hc)]
    rfl

/-- The same at the end of a function. -/
theorem passOn_refuse_last {c d : Prop} [Decidable c] [Decidable d] {e : ε} (h : d ↔ ¬ c) :
    passOn (if c then throw e else pure () : Except ε Unit) = require d e := by
  by_cases hc : c
  · rw [if_pos hc, require, if_neg (fun hd => h.mp hd hc)]
    rfl
  · rw [if_neg hc, require, if_pos (h.mpr hc)]
    rfl

/-! ## Reading -/

theorem slice_eq (hij : i ≤ j) (hj : j ≤ buffer.length) :
    (slice buffer i j : Outcome ε Bytes) = .ok ((buffer.take j).drop i) :=
  if_pos ⟨hij, hj⟩

/-- What has been written. -/
theorem slice_done : (slice (done ++ rest) 0 done.length : Outcome ε Bytes) = .ok done := by
  rw [slice_eq (Nat.zero_le _) (by simp), List.take_left, List.drop_zero]

/-- Its first bytes. -/
theorem slice_to (hi : i ≤ done.length) : (slice (done ++ rest) 0 i : Outcome ε Bytes) = .ok (done.take i) := by
  rw [slice_eq (Nat.zero_le _) (by rw [List.length_append]; omega), List.take_append_of_le_length hi, List.drop_zero]

/-- Its last bytes. -/
theorem slice_from (hi : i ≤ done.length) :
    (slice (done ++ rest) i done.length : Outcome ε Bytes) = .ok (done.drop i) := by
  rw [slice_eq hi (by simp), List.take_left]

/-! ## Writing -/

/-- The next bytes. -/
theorem copyFromSlice_next (hfits : source.length ≤ rest.length) :
    (copyFromSlice (done ++ rest) done.length (done.length + source.length) source : Outcome ε Bytes)
      = .ok (done ++ source ++ rest.drop source.length) := by
  have hrange : done.length ≤ done.length + source.length ∧ done.length + source.length ≤ (done ++ rest).length ∧
      source.length = done.length + source.length - done.length := by
    rw [List.length_append]
    omega
  rw [copyFromSlice, if_pos hrange, List.take_left, List.drop_append]
  simp

/-- The next byte. -/
theorem setByte_next {b : UInt8} (hfits : 0 < rest.length) :
    (setByte (done ++ rest) done.length b : Outcome ε Bytes) = .ok (done ++ [b] ++ rest.drop 1) := by
  cases rest with
  | nil => cases hfits
  | cons r rest =>
      rw [setByte, if_pos (by simp)]
      simp

/-- A value at the start of an empty buffer. -/
theorem copyFromSlice_zeros {n : Nat} (hfits : source.length ≤ n) :
    (copyFromSlice (zeros n) 0 source.length source : Outcome ε Bytes) = .ok (source ++ zeros (n - source.length)) := by
  have h : (copyFromSlice ([] ++ zeros n) 0 (0 + source.length) source : Outcome ε Bytes) = _ :=
    copyFromSlice_next (by simpa [zeros] using hfits)
  simpa [zeros] using h

/-- A value that is longer than the buffer. -/
theorem copyFromSlice_overflow {n : Nat} (hlong : n < source.length) :
    (copyFromSlice (zeros n) 0 source.length source : Outcome ε Bytes) = .error .trap := by
  apply if_neg
  rintro ⟨_, hfits, _⟩
  rw [zeros, List.length_replicate] at hfits
  exact Nat.not_le.mpr hlong hfits

/-- **Two values with a byte between them**, written into an empty buffer that has room for them. -/
theorem write_joined {n : Nat} {left right : Bytes} {c : UInt8} (hroom : left.length + 1 + right.length ≤ n) :
    (do
      let buffer ← copyFromSlice (zeros n) 0 left.length left
      let buffer ← setByte buffer left.length c
      let buffer ← copyFromSlice buffer (left.length + 1) (left.length + 1 + right.length) right
      slice buffer 0 (left.length + 1 + right.length) : Outcome ε Bytes) = .ok (left ++ c :: right) := by
  have hzeros : ∀ k, (zeros k).length = k := fun k => List.length_replicate
  have hleft : (left ++ [c]).length = left.length + 1 := by simp
  rw [copyFromSlice_zeros (by omega), ok_bind_outcome, setByte_next (by rw [hzeros]; omega), ok_bind_outcome, ← hleft,
    copyFromSlice_next (by rw [List.length_drop, hzeros]; omega), ok_bind_outcome, ← List.length_append, slice_done]
  simp

/-- Without the room the buffer runs over, at the first value or behind it. -/
theorem write_joined_overflow {n : Nat} {left right : Bytes} {c : UInt8} (hlong : n < left.length + 1 + right.length) :
    (do
      let buffer ← copyFromSlice (zeros n) 0 left.length left
      let buffer ← setByte buffer left.length c
      let buffer ← copyFromSlice buffer (left.length + 1) (left.length + 1 + right.length) right
      slice buffer 0 (left.length + 1 + right.length) : Outcome ε Bytes) = .error .trap := by
  by_cases hleft : left.length ≤ n
  · rw [copyFromSlice_zeros hleft, ok_bind_outcome]
    have hlength : (left ++ zeros (n - left.length)).length = n := by
      rw [List.length_append, zeros, List.length_replicate]
      omega
    by_cases hbyte : left.length < n
    · have hset : (setByte (left ++ zeros (n - left.length)) left.length c : Outcome ε Bytes)
          = .ok ((left ++ zeros (n - left.length)).set left.length c) := if_pos (by rw [hlength]; exact hbyte)
      rw [hset, ok_bind_outcome, copyFromSlice, if_neg]
      · rfl
      · rintro ⟨_, hfits, _⟩
        rw [List.length_set, hlength] at hfits
        exact Nat.not_le.mpr hlong hfits
    · rw [setByte, if_neg (by rw [hlength]; exact hbyte)]
      rfl
  · rw [copyFromSlice_overflow (Nat.not_le.mp hleft)]
    rfl

end Soroban
