import XlmNs.Soroban.Env

/-!
# `Soroban.Utf8` — the bytes of a string

A host `String` made from a program's string holds its UTF-8 bytes. A character below 128 is one byte, itself; every
byte of another character is 128 or more. What is asked of ASCII bytes can so be asked of characters.
-/

namespace Soroban

/-- The bytes of a string. -/
def utf8 (s : String) : Bytes := s.toUTF8.data.toList

/-- The bytes of characters, one after the other. -/
def encode (chars : List Char) : Bytes := chars.flatMap String.utf8EncodeChar

theorem utf8_eq_encode (s : String) : utf8 s = encode s.toList := by
  have hbytes : s.toUTF8 = (encode s.toList).toByteArray := String.utf8Encode_toList.symm
  unfold utf8
  rw [hbytes, List.toList_data_toByteArray]

theorem length_utf8 (s : String) : (utf8 s).length = s.utf8ByteSize := by
  unfold utf8
  rw [Array.length_toList]
  rfl

variable {c d : Char} {chars : List Char}

theorem encode_nil : encode [] = [] := rfl

theorem encode_cons : encode (c :: chars) = String.utf8EncodeChar c ++ encode chars := List.flatMap_cons

theorem encode_append {chars' : List Char} : encode (chars ++ chars') = encode chars ++ encode chars' :=
  List.flatMap_append

theorem encode_injective {chars' : List Char} (h : encode chars = encode chars') : chars = chars' := by
  apply String.ofList_injective
  apply String.toByteArray_inj.mp
  rw [String.toByteArray_ofList, String.toByteArray_ofList]
  exact congrArg List.toByteArray h

/-! ## Characters of one byte -/

theorem encodeChar_of_lt (h : c.toNat < 128) : String.utf8EncodeChar c = [c.toNat.toUInt8] := by
  have hone : c.val.toNat ≤ 127 := Nat.le_of_lt_succ h
  unfold String.utf8EncodeChar
  show (if c.val.toNat ≤ 127 then _ else _) = _
  rw [if_pos hone]
  rfl

theorem high_ofNat {n : Nat} (hlow : 128 ≤ n) (hbyte : n < 256) : 128 ≤ UInt8.ofNat n := by
  rw [UInt8.le_iff_toNat_le, UInt8.toNat_ofNat', Nat.mod_eq_of_lt hbyte]
  exact hlow

/-- **Lead and continuation bytes** of a longer character have their high bit set. -/
theorem encodeChar_high (h : 128 ≤ c.toNat) : ∀ b ∈ String.utf8EncodeChar c, 128 ≤ b := by
  have hmany : ¬ c.val.toNat ≤ 127 := Nat.not_le.mpr h
  have hlast : c.val.toNat < 1114112 := by
    rcases c.valid with hlow | ⟨_, hhigh⟩
    · exact Nat.lt_trans hlow (by decide)
    · exact hhigh
  unfold String.utf8EncodeChar
  show ∀ b ∈ (if c.val.toNat ≤ 127 then _ else _), 128 ≤ b
  rw [if_neg hmany]
  -- two, three or four bytes
  split_ifs
  · simp only [List.forall_mem_cons]
    exact ⟨high_ofNat (by omega) (by omega), high_ofNat (by omega) (by omega), List.forall_mem_nil _⟩
  · simp only [List.forall_mem_cons]
    exact ⟨high_ofNat (by omega) (by omega), high_ofNat (by omega) (by omega), high_ofNat (by omega) (by omega),
      List.forall_mem_nil _⟩
  · simp only [List.forall_mem_cons]
    exact ⟨high_ofNat (by omega) (by omega), high_ofNat (by omega) (by omega), high_ofNat (by omega) (by omega),
      high_ofNat (by omega) (by omega), List.forall_mem_nil _⟩

theorem toNat_toUInt8 (h : c.toNat < 128) : c.toNat.toUInt8.toNat = c.toNat :=
  Nat.mod_eq_of_lt (Nat.lt_trans h (by decide))

theorem toUInt8_lt (h : c.toNat < 128) : c.toNat.toUInt8 < 128 := by
  rw [UInt8.lt_iff_toNat_lt, toNat_toUInt8 h]
  exact h

theorem toUInt8_inj (hc : c.toNat < 128) (hd : d.toNat < 128) : c.toNat.toUInt8 = d.toNat.toUInt8 ↔ c = d := by
  constructor
  · intro h
    have hnat := congrArg UInt8.toNat h
    rw [toNat_toUInt8 hc, toNat_toUInt8 hd] at hnat
    exact Char.toNat_inj.mp hnat
  · rintro rfl
    rfl

/-- **What holds of all bytes** is what holds of all characters, for a property of ASCII bytes and characters. -/
theorem forall_encode {P : UInt8 → Prop} {Q : Char → Prop} (hP : ∀ b, P b → b < 128) (hQ : ∀ c, Q c → c.toNat < 128)
    (h : ∀ c : Char, c.toNat < 128 → (P c.toNat.toUInt8 ↔ Q c)) :
    (∀ b ∈ encode chars, P b) ↔ ∀ c ∈ chars, Q c := by
  have hchar : ∀ c : Char, (∀ b ∈ String.utf8EncodeChar c, P b) ↔ Q c := by
    intro c
    by_cases hc : c.toNat < 128
    · rw [encodeChar_of_lt hc, List.forall_mem_singleton]
      exact h c hc
    · apply iff_of_false
      · intro hall
        obtain ⟨b, hb⟩ := List.exists_mem_of_ne_nil _ (String.utf8EncodeChar_ne_nil (c := c))
        exact absurd (hP b (hall b hb)) (UInt8.not_lt.mpr (encodeChar_high (Nat.le_of_not_lt hc) b hb))
      · exact fun hall => hc (hQ c hall)
  unfold encode
  rw [List.forall_mem_flatMap]
  exact forall₂_congr fun c _ => hchar c

/-- **The first byte** is an ASCII character's if and only if that character comes first. -/
theorem head?_encode (hd : d.toNat < 128) : (encode chars).head? = some d.toNat.toUInt8 ↔ chars.head? = some d := by
  cases chars with
  | nil => exact iff_of_false (fun h => nomatch h) (fun h => nomatch h)
  | cons c rest =>
      rw [encode_cons, List.head?_append_of_ne_nil _ String.utf8EncodeChar_ne_nil, List.head?_cons]
      by_cases hc : c.toNat < 128
      · rw [encodeChar_of_lt hc, List.head?_cons, Option.some_inj, Option.some_inj]
        exact toUInt8_inj hc hd
      · apply iff_of_false
        · intro h
          have hhigh := encodeChar_high (Nat.le_of_not_lt hc) _ (List.mem_of_head? h)
          exact absurd (toUInt8_lt hd) (UInt8.not_lt.mpr hhigh)
        · rintro ⟨⟩
          exact hc hd

/-- **The last byte**, the same. -/
theorem getLast?_encode (hd : d.toNat < 128) :
    (encode chars).getLast? = some d.toNat.toUInt8 ↔ chars.getLast? = some d := by
  rcases List.eq_nil_or_concat' chars with rfl | ⟨front, c, rfl⟩
  · exact iff_of_false (fun h => nomatch h) (fun h => nomatch h)
  · rw [encode_append, encode_cons, encode_nil, List.append_nil,
      List.getLast?_append_of_ne_nil _ String.utf8EncodeChar_ne_nil, List.getLast?_concat]
    by_cases hc : c.toNat < 128
    · rw [encodeChar_of_lt hc, List.getLast?_singleton, Option.some_inj, Option.some_inj]
      exact toUInt8_inj hc hd
    · apply iff_of_false
      · intro h
        have hhigh := encodeChar_high (Nat.le_of_not_lt hc) _ (List.mem_of_getLast? h)
        exact absurd (toUInt8_lt hd) (UInt8.not_lt.mpr hhigh)
      · rintro ⟨⟩
        exact hc hd

/-- **ASCII bytes are the bytes of characters.** -/
theorem encode_of_bytes {bytes : Bytes} (h : ∀ b ∈ bytes, b < 128) :
    encode (bytes.map Char.ofUInt8) = bytes := by
  induction bytes with
  | nil => rfl
  | cons b bytes ih =>
      have hb : (Char.ofUInt8 b).toNat < 128 := h b List.mem_cons_self
      rw [List.map_cons, encode_cons, ih (fun b hb => h b (List.mem_cons_of_mem _ hb)), encodeChar_of_lt hb]
      exact congrArg (· :: bytes) (UInt8.ofNat_toNat (x := b))

end Soroban
