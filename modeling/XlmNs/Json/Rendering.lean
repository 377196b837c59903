import Mathlib.Algebra.BigOperators.Group.List.Basic
import Mathlib.Algebra.GroupWithZero.Nat
import XlmNs.Json.Grammar
import XlmNs.Soroban.Utf8

/-!
# `Json.Rendering` — objects of strings, written without escapes

`render` writes an object whose members are strings, putting them between quotes as they are. For strings that are
`Plain` the text decodes to the object (`decodes_render`). The converse goes by length: an escape is longer than what
it names and space names nothing, so no text for the object is shorter than `render`'s, and one that is as short has
no escape in it (`Decodes.length`).
-/

namespace Json

/-- A string that stands for itself between two quotes: no quote, no backslash, no control byte. -/
def Plain (s : Text) : Prop := ∀ b ∈ s, b ≠ quote ∧ b ≠ backslash ∧ ¬ b < 32

instance (s : Text) : Decidable (Plain s) := List.decidableBAll _ s

theorem Plain.nil : Plain [] := by
  intro b hb
  cases hb

theorem plain_cons {b : UInt8} {s : Text} : Plain (b :: s) ↔ (b ≠ quote ∧ b ≠ backslash ∧ ¬ b < 32) ∧ Plain s :=
  List.forall_mem_cons

/-- A member whose value is a string. -/
def stringMember (m : Text × Text) : Text × Value := (m.1, .string m.2)

/-- The object with these members. -/
def strings (fields : List (Text × Text)) : Value := .object (fields.map stringMember)

/-- An object of strings has one list of members. -/
theorem strings_inj {fields fields' : List (Text × Text)} (h : strings fields = strings fields') :
    fields = fields' := by
  have hinj : Function.Injective stringMember := by
    rintro ⟨name, s⟩ ⟨name', s'⟩ heq
    obtain ⟨rfl, hvalue⟩ := Prod.mk.inj heq
    cases hvalue
    rfl
  exact List.map_injective_iff.mpr hinj (Value.object.inj h)

/-! ## Writing -/

/-- A name and its string. -/
def member (m : Text × Text) : Text := quote :: (m.1 ++ quote :: colon :: quote :: (m.2 ++ [quote]))

/-- The members from the first one on, up to the closing brace. -/
def body : Text × Text → List (Text × Text) → Text
  | m, []       => member m ++ [closeBrace]
  | m, m' :: ms => member m ++ comma :: body m' ms

/-- An object of strings, without white space. -/
def render : List (Text × Text) → Text
  | []      => [openBrace, closeBrace]
  | m :: ms => openBrace :: body m ms

/-- The length of a member with the byte after it. -/
def size (fields : List (Text × Text)) : Nat := (fields.map (fun m => m.1.length + m.2.length + 6)).sum

theorem length_member (m : Text × Text) : (member m).length = m.1.length + m.2.length + 5 := by
  simp only [member, List.length_cons, List.length_append, List.length_nil]
  omega

theorem size_cons (m : Text × Text) (ms : List (Text × Text)) :
    size (m :: ms) = m.1.length + m.2.length + 6 + size ms := by
  simp [size]

/-- The order of the members does not matter to it. -/
theorem size_perm {fields fields' : List (Text × Text)} (h : fields.Perm fields') : size fields = size fields' :=
  (h.map _).sum_eq

theorem length_body (m : Text × Text) (ms : List (Text × Text)) : (body m ms).length = size (m :: ms) := by
  induction ms generalizing m with
  | nil => simp [body, length_member, size]
  | cons m' ms ih =>
      rw [size_cons, ← ih m']
      simp only [body, List.length_append, List.length_cons, length_member]
      omega

/-- How long an object of strings is. -/
theorem length_render (m : Text × Text) (ms : List (Text × Text)) :
    (render (m :: ms)).length = 1 + size (m :: ms) := by
  rw [← length_body]
  simp only [render, List.length_cons]
  omega

/-! ## Reading what was written -/

variable {t rest s : Text} {c : UInt8}

theorem skip_of_not_space (h : isSpace c = false) : skip (c :: t) = c :: t := by
  simp [skip, h]

/-- The byte that comes next is the one expected, or not. -/
theorem expect_cons {b : UInt8} (h : isSpace b = false) :
    expect c (b :: t) = if b = c then some t else none := by
  simp [expect, skip_of_not_space h]

/-- **A plain string is read as it stands.** -/
theorem chars_plain (h : Plain s) (t : Text) : chars none (s ++ quote :: t) = some (s, t) := by
  -- byte by byte, none of them ends the string or starts an escape
  induction s with
  | nil =>
      show chars none (quote :: t) = some ([], t)
      unfold chars
      rw [if_neg (by decide), if_neg (by decide), if_pos rfl]
  | cons b s ih =>
      obtain ⟨⟨hquote, hbackslash, hcontrol⟩, hs⟩ := plain_cons.mp h
      rw [List.cons_append]
      unfold chars
      rw [if_neg hbackslash, ih hs]
      simp [hquote, hcontrol, before]

/-- A plain string between quotes is read as itself. -/
theorem value_plain (h : Plain s) (n : Nat) (t : Text) :
    value (n + 1) (quote :: (s ++ quote :: t)) = some (.string s, t) := by
  have hquote : expect quote (quote :: (s ++ quote :: t)) = some (s ++ quote :: t) := by
    rw [expect_cons (by decide), if_pos rfl]
  unfold value
  rw [hquote]
  simp [chars_plain h]

/-- A byte that is no space is found where it is expected. -/
theorem expect_self (h : isSpace c = false) : expect c (c :: t) = some t := by
  rw [expect_cons h, if_pos rfl]

/-- One member, and what follows it. -/
theorem members_member {m : Text × Text} (h : Plain m.1 ∧ Plain m.2) (n : Nat) (t : Text) :
    members (n + 2) (member m ++ t)
      = match expect comma t with
        | some t => (members (n + 1) t).map (fun (ms, rest) => (stringMember m :: ms, rest))
        | none   => (expect closeBrace t).map (fun rest => ([stringMember m], rest)) := by
  have hopen : member m ++ t = quote :: (m.1 ++ quote :: colon :: quote :: (m.2 ++ quote :: t)) := by
    simp [member]
  have hvalue : value (n + 1) (quote :: (m.2 ++ quote :: t)) = some (.string m.2, t) := value_plain h.2 n t
  rw [hopen]
  unfold members
  simp only [expect_self (show isSpace quote = false by decide), expect_self (show isSpace colon = false by decide),
    chars_plain h.1, hvalue, Option.bind_eq_bind, Option.bind_some]
  rfl

/-- The members are read back, whatever comes after the brace. -/
theorem members_body {m : Text × Text} {ms : List (Text × Text)} (h : ∀ m' ∈ m :: ms, Plain m'.1 ∧ Plain m'.2)
    (t : Text) : members (ms.length + 2) (body m ms ++ t) = some ((m :: ms).map stringMember, t) := by
  induction ms generalizing m with
  | nil =>
      have hclose : body m [] ++ t = member m ++ closeBrace :: t := by simp [body]
      rw [hclose]
      refine (members_member (h m (List.mem_singleton_self m)) 0 _).trans ?_
      rw [expect_cons (by decide), if_neg (by decide)]
      simp only [expect_self (show isSpace closeBrace = false by decide)]
      rfl
  | cons m' ms ih =>
      have hcomma : body m (m' :: ms) ++ t = member m ++ comma :: (body m' ms ++ t) := by simp [body]
      rw [hcomma]
      refine (members_member (h m List.mem_cons_self) _ _).trans ?_
      have hrest : members ((m' :: ms).length + 1) (body m' ms ++ t) = some ((m' :: ms).map stringMember, t) :=
        ih (fun m'' hm'' => h m'' (List.mem_cons_of_mem m hm''))
      simp only [expect_self (show isSpace comma = false by decide), hrest]
      rfl

/-- **Plain members are read back from what is written.** -/
theorem decodes_render {m : Text × Text} {ms : List (Text × Text)} (h : ∀ m' ∈ m :: ms, Plain m'.1 ∧ Plain m'.2)
    (hutf8 : (render (m :: ms)).toByteArray.IsValidUTF8) :
    Decodes (render (m :: ms)) (strings (m :: ms)) := by
  refine ⟨hutf8, ms.length + 3, [], ?_, rfl⟩
  have hmembers := members_body h []
  rw [List.append_nil] at hmembers
  have hquote : expect quote (openBrace :: body m ms) = none := by
    rw [expect_cons (by decide), if_neg (by decide)]
  have hempty : expect closeBrace (body m ms) = none := by
    obtain ⟨t, ht⟩ : ∃ t, body m ms = quote :: t := by
      cases ms with
      | nil => exact ⟨_, rfl⟩
      | cons m' ms => exact ⟨_, rfl⟩
    rw [ht, expect_cons (by decide), if_neg (by decide)]
  show value (ms.length + 3) (openBrace :: body m ms) = _
  unfold value
  simp only [hquote, expect_self (show isSpace openBrace = false by decide), hempty, hmembers]
  rfl

/-! ## UTF-8 -/

/-- Two pieces of UTF-8 make one. -/
theorem utf8_append {s t : Text} (hs : s.toByteArray.IsValidUTF8) (ht : t.toByteArray.IsValidUTF8) :
    (s ++ t).toByteArray.IsValidUTF8 := by
  rw [List.toByteArray_append]
  exact hs.append ht

/-- ASCII is UTF-8. -/
theorem utf8_ascii {t : Text} (h : t.all (· < 128) = true) : t.toByteArray.IsValidUTF8 := by
  have hascii : ∀ b ∈ t, b < 128 := by
    intro b hb
    exact of_decide_eq_true (List.all_eq_true.mp h b hb)
  have hchars : (Soroban.encode (t.map Char.ofUInt8)).toByteArray.IsValidUTF8 := .intro _ rfl
  rwa [Soroban.encode_of_bytes hascii] at hchars

theorem utf8_member {m : Text × Text} (h : m.1.toByteArray.IsValidUTF8 ∧ m.2.toByteArray.IsValidUTF8) :
    (member m).toByteArray.IsValidUTF8 := by
  have hparts : member m = [quote] ++ (m.1 ++ ([quote, colon, quote] ++ (m.2 ++ [quote]))) := by simp [member]
  have hquote : [quote].toByteArray.IsValidUTF8 := utf8_ascii (by decide)
  have hcolon : [quote, colon, quote].toByteArray.IsValidUTF8 := utf8_ascii (by decide)
  rw [hparts]
  exact utf8_append hquote (utf8_append h.1 (utf8_append hcolon (utf8_append h.2 hquote)))

theorem utf8_body {m : Text × Text} {ms : List (Text × Text)}
    (h : ∀ m' ∈ m :: ms, m'.1.toByteArray.IsValidUTF8 ∧ m'.2.toByteArray.IsValidUTF8) :
    (body m ms).toByteArray.IsValidUTF8 := by
  have hfirst := utf8_member (h m List.mem_cons_self)
  induction ms generalizing m with
  | nil => exact utf8_append hfirst (utf8_ascii (by decide))
  | cons m' ms ih =>
      have hrest : ∀ m'' ∈ m' :: ms, m''.1.toByteArray.IsValidUTF8 ∧ m''.2.toByteArray.IsValidUTF8 :=
        fun m'' hm'' => h m'' (List.mem_cons_of_mem m hm'')
      have hcomma : [comma].toByteArray.IsValidUTF8 := utf8_ascii (by decide)
      exact utf8_append hfirst (utf8_append hcomma (ih hrest (utf8_member (hrest m' List.mem_cons_self))))

/-- An object of UTF-8 strings is UTF-8. -/
theorem utf8_render {m : Text × Text} {ms : List (Text × Text)}
    (h : ∀ m' ∈ m :: ms, m'.1.toByteArray.IsValidUTF8 ∧ m'.2.toByteArray.IsValidUTF8) :
    (render (m :: ms)).toByteArray.IsValidUTF8 := by
  have hopen : [openBrace].toByteArray.IsValidUTF8 := utf8_ascii (by decide)
  exact utf8_append hopen (utf8_body h)

/-! ## No text is shorter -/

/-- A byte that is expected takes at least its place. -/
theorem expect_length (h : expect c t = some rest) : rest.length + 1 ≤ t.length := by
  have hskip : (skip t).length ≤ t.length := (List.dropWhile_sublist isSpace).length_le
  unfold expect at h
  split at h
  · rename_i b u heq
    split at h
    · cases h
      rw [heq, List.length_cons] at hskip
      exact hskip
    · cases h
  · cases h

/-- A code point takes four bytes at most. -/
theorem length_encode (codePoint : Nat) : (encode codePoint).length ≤ 4 := by
  unfold encode
  rw [String.length_utf8EncodeChar]
  exact Char.utf8Size_le_four _

theorem map_before {bytes : Text} {r : Option (Text × Text)} (h : r.map (before bytes) = some (s, rest)) :
    ∃ s', r = some (s', rest) ∧ s = bytes ++ s' := by
  obtain ⟨⟨s', rest'⟩, hr, heq⟩ := Option.map_eq_some_iff.mp h
  obtain ⟨rfl, rfl⟩ := Prod.mk.inj heq
  exact ⟨s', hr, rfl⟩

/-- **Reading a string**: what it names is no longer than what stands there, and shorter if there is an escape. -/
theorem chars_length {high : Option Nat} (h : chars high t = some (s, rest)) :
    s.length + rest.length + 1 ≤ t.length ∧ (t.length ≤ s.length + rest.length + 1 → Plain s) := by
  fun_induction chars high t generalizing s rest with
  | case4 h₁ h₂ h₃ h₄ t unit _ _ ih =>
      -- the first half of a pair names nothing yet
      have hlength := (ih h).1
      simp only [List.length_cons]
      exact ⟨by omega, fun hshort => by omega⟩
  | case6 h₁ h₂ h₃ h₄ t unit _ _ _ ih =>
      obtain ⟨s', hs', rfl⟩ := map_before h
      have hlength := (ih hs').1
      have hencode := length_encode unit
      simp only [List.length_cons, List.length_append]
      exact ⟨by omega, fun hshort => by omega⟩
  | case7 h₁ h₂ h₃ h₄ t unit first _ _ ih =>
      obtain ⟨s', hs', hs⟩ := map_before h
      have hlength := (ih hs').1
      have hencode := length_encode (surrogatePair first unit)
      rw [hs]
      simp only [List.length_cons, List.length_append]
      exact ⟨by omega, fun hshort => by omega⟩
  | case10 e t _ c _ ih =>
      obtain ⟨s', hs', rfl⟩ := map_before h
      have hlength := (ih hs').1
      simp only [List.length_cons, List.length_append, List.length_nil]
      exact ⟨by omega, fun hshort => by omega⟩
  | case13 high t =>
      cases h
      exact ⟨by simp, fun _ => Plain.nil⟩
  | case15 high b t hbackslash _ hquote hcontrol ih =>
      obtain ⟨s', hs', rfl⟩ := map_before h
      obtain ⟨hlength, hplain⟩ := ih hs'
      simp only [List.length_cons, List.length_append, List.length_nil]
      refine ⟨by omega, fun hshort => ?_⟩
      exact plain_cons.mpr ⟨⟨hquote, hbackslash, hcontrol⟩, hplain (by omega)⟩
  | _ => cases h

/-- Words and numbers are no strings and no objects. -/
theorem scalar_value {v : Value} (h : scalar t = some (v, rest)) : (∀ s, v ≠ .string s) ∧ ∀ ms, v ≠ .object ms := by
  unfold scalar at h
  split at h
  · cases h
    simp
  · cases h
    simp
  · cases h
    simp
  · unfold number at h
    split at h
    · cases h
      simp
    · cases h

/-- A value that is a string was read between quotes. -/
theorem value_string {n : Nat} (h : value n t = some (.string s, rest)) :
    ∃ t₁, expect quote t = some t₁ ∧ chars none t₁ = some (s, rest) := by
  cases n with
  | zero => cases h
  | succ n =>
      unfold value at h
      split at h
      · rename_i t₁ hquote
        obtain ⟨⟨s', rest'⟩, hchars, heq⟩ := Option.map_eq_some_iff.mp h
        obtain ⟨hs, rfl⟩ := Prod.mk.inj heq
        cases hs
        exact ⟨t₁, hquote, hchars⟩
      · split at h
        · cases h
        · obtain ⟨_, _, heq⟩ := Option.map_eq_some_iff.mp h
          cases heq
      · split at h
        · cases h
        · obtain ⟨_, _, heq⟩ := Option.map_eq_some_iff.mp h
          cases heq
      · exact absurd rfl ((scalar_value h).1 s)

/-- An object was read between braces. -/
theorem value_object {n : Nat} {ms : List (Text × Value)} (h : value n t = some (.object ms, rest)) :
    ∃ k t₁, expect openBrace t = some t₁ ∧
      ((ms = [] ∧ expect closeBrace t₁ = some rest) ∨ members k t₁ = some (ms, rest)) := by
  cases n with
  | zero => cases h
  | succ n =>
      unfold value at h
      split at h
      · obtain ⟨_, _, heq⟩ := Option.map_eq_some_iff.mp h
        cases heq
      · rename_i t₁ hbrace _
        refine ⟨n, t₁, hbrace, ?_⟩
        split at h
        · rename_i rest' hclose
          obtain ⟨hms, rfl⟩ := Prod.mk.inj (Option.some.inj h)
          cases hms
          exact Or.inl ⟨rfl, hclose⟩
        · obtain ⟨⟨ms', rest'⟩, hmembers, heq⟩ := Option.map_eq_some_iff.mp h
          obtain ⟨hms, rfl⟩ := Prod.mk.inj heq
          cases hms
          exact Or.inr hmembers
      · split at h
        · cases h
        · obtain ⟨_, _, heq⟩ := Option.map_eq_some_iff.mp h
          cases heq
      · exact absurd rfl ((scalar_value h).2 ms)

/-- **Reading a member**: name, colon, value, and then the end or a comma and more. -/
theorem members_cons {n : Nat} {ms : List (Text × Value)} (h : members n t = some (ms, rest)) :
    ∃ k t₁ name t₂ t₃ v t₄ ms', expect quote t = some t₁ ∧ chars none t₁ = some (name, t₂) ∧
      expect colon t₂ = some t₃ ∧ value k t₃ = some (v, t₄) ∧ ms = (name, v) :: ms' ∧
      ((ms' = [] ∧ expect closeBrace t₄ = some rest) ∨
        ∃ t₅, expect comma t₄ = some t₅ ∧ members k t₅ = some (ms', rest)) := by
  cases n with
  | zero => cases h
  | succ n =>
      unfold members at h
      simp only [Option.bind_eq_bind, Option.bind_eq_some_iff] at h
      obtain ⟨t₁, hquote, ⟨name, t₂⟩, hname, t₃, hcolon, ⟨v, t₄⟩, hvalue, h⟩ := h
      split at h
      · rename_i t₅ hcomma
        obtain ⟨⟨ms', rest'⟩, hmembers, heq⟩ := Option.map_eq_some_iff.mp h
        obtain ⟨rfl, rfl⟩ := Prod.mk.inj heq
        exact ⟨n, t₁, name, t₂, t₃, v, t₄, ms', hquote, hname, hcolon, hvalue, rfl, Or.inr ⟨t₅, hcomma, hmembers⟩⟩
      · obtain ⟨rest', hclose, heq⟩ := Option.map_eq_some_iff.mp h
        obtain ⟨rfl, rfl⟩ := Prod.mk.inj heq
        exact ⟨n, t₁, name, t₂, t₃, v, t₄, [], hquote, hname, hcolon, hvalue, rfl, Or.inl ⟨rfl, hclose⟩⟩

/-- **Reading members that are strings** takes at least what `render` writes for them. -/
theorem members_length {n : Nat} {fields : List (Text × Text)}
    (h : members n t = some (fields.map stringMember, rest)) :
    size fields + rest.length ≤ t.length ∧
      (t.length ≤ size fields + rest.length → ∀ m ∈ fields, Plain m.1 ∧ Plain m.2) := by
  -- on the fields; every byte that is expected takes one place, every name and value its length at least
  induction fields generalizing n t rest with
  | nil =>
      obtain ⟨_, _, _, _, _, _, _, _, _, _, _, _, hnil, _⟩ := members_cons h
      cases hnil
  | cons m fields ih =>
      obtain ⟨k, t₁, name, t₂, t₃, v, t₄, ms', hquote, hname, hcolon, hvalue, hms, hrest⟩ := members_cons h
      obtain ⟨hm, rfl⟩ := List.cons.inj hms
      obtain ⟨rfl, rfl⟩ := Prod.mk.inj hm
      obtain ⟨t₆, hopen, hstring⟩ := value_string hvalue
      -- a quote, the name, a colon, a quote and the value, each with what reading it takes
      have h₁ := expect_length hquote
      have h₂ := chars_length hname
      have h₃ := expect_length hcolon
      have h₄ := expect_length hopen
      have h₅ := chars_length hstring
      rw [size_cons]
      rcases hrest with ⟨hnil, hclose⟩ | ⟨t₅, hcomma, hmembers⟩
      · have hfields : fields = [] := List.map_eq_nil_iff.mp hnil
        subst hfields
        have h₆ := expect_length hclose
        refine ⟨by simp only [size, List.map_nil, List.sum_nil]; omega, fun hshort => ?_⟩
        rw [List.forall_mem_singleton]
        simp only [size, List.map_nil, List.sum_nil] at hshort
        exact ⟨h₂.2 (by omega), h₅.2 (by omega)⟩
      · have h₆ := expect_length hcomma
        have h₇ := ih hmembers
        refine ⟨by omega, fun hshort => ?_⟩
        exact List.forall_mem_cons.mpr ⟨⟨h₂.2 (by omega), h₅.2 (by omega)⟩, h₇.2 (by omega)⟩

/-- **No text for an object of strings is shorter than the plain one**, and one that is no longer has no escape. -/
theorem Decodes.length {fields : List (Text × Text)} (h : Decodes t (strings fields)) :
    1 + size fields ≤ t.length ∧ (t.length ≤ 1 + size fields → ∀ m ∈ fields, Plain m.1 ∧ Plain m.2) := by
  obtain ⟨_, n, rest, hvalue, _⟩ := h
  obtain ⟨k, t₁, hbrace, hinside⟩ := value_object hvalue
  have hopen := expect_length hbrace
  rcases hinside with ⟨hnil, _⟩ | hmembers
  · have hfields : fields = [] := List.map_eq_nil_iff.mp hnil
    subst hfields
    exact ⟨by simp only [size, List.map_nil, List.sum_nil]; omega, fun _ => List.forall_mem_nil _⟩
  · have hmembers := members_length hmembers
    exact ⟨by omega, fun hshort => hmembers.2 (by omega)⟩

/-! ## One value a text -/

theorem map_mono {α β : Type} {r r' : Option α} (h : ∀ a, r = some a → r' = some a) {f : α → β} {b : β}
    (hb : r.map f = some b) : r'.map f = some b := by
  obtain ⟨a, ha, rfl⟩ := Option.map_eq_some_iff.mp hb
  rw [h a ha]
  rfl

/-- One more turn reads the same. -/
theorem reading_mono (n : Nat) :
    (∀ t r, value n t = some r → value (n + 1) t = some r) ∧
    (∀ t r, members n t = some r → members (n + 1) t = some r) ∧
    (∀ t r, elements n t = some r → elements (n + 1) t = some r) := by
  -- the three readers call one another with one turn less
  induction n with
  | zero =>
      refine ⟨?_, ?_, ?_⟩
      · intro t r h
        cases h
      · intro t r h
        cases h
      · intro t r h
        cases h
  | succ n ih =>
      obtain ⟨ihvalue, ihmembers, ihelements⟩ := ih
      refine ⟨?_, ?_, ?_⟩
      · intro t r h
        unfold value at h ⊢
        split at h
        · exact h
        · split at h
          · exact h
          · exact map_mono (ihmembers _) h
        · split at h
          · exact h
          · exact map_mono (ihelements _) h
        · exact h
      · intro t r h
        unfold members at h ⊢
        simp only [Option.bind_eq_bind, Option.bind_eq_some_iff] at h ⊢
        obtain ⟨t₁, hquote, nt, hname, t₃, hcolon, vt, hvalue, h⟩ := h
        refine ⟨t₁, hquote, nt, hname, t₃, hcolon, vt, ihvalue t₃ vt hvalue, ?_⟩
        split at h
        · exact map_mono (ihmembers _) h
        · exact h
      · intro t r h
        unfold elements at h ⊢
        simp only [Option.bind_eq_bind, Option.bind_eq_some_iff] at h ⊢
        obtain ⟨vt, hvalue, h⟩ := h
        refine ⟨vt, ihvalue t vt hvalue, ?_⟩
        split at h
        · exact map_mono (ihelements _) h
        · exact h

/-- More fuel reads the same. -/
theorem value_mono {n k : Nat} (hle : n ≤ k) {r : Value × Text} (h : value n t = some r) : value k t = some r := by
  induction hle with
  | refl => exact h
  | step _ ih => exact (reading_mono _).1 t r ih

/-- **A text names one value**, however many turns it is given. -/
theorem Decodes.unique {v v' : Value} (h : Decodes t v) (h' : Decodes t v') : v = v' := by
  obtain ⟨_, n, rest, hvalue, _⟩ := h
  obtain ⟨_, k, rest', hvalue', _⟩ := h'
  have hboth := (value_mono (Nat.le_max_left n k) hvalue).symm.trans (value_mono (Nat.le_max_right n k) hvalue')
  exact (Prod.mk.inj (Option.some.inj hboth)).1

end Json
