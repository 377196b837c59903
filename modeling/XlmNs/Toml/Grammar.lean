import Mathlib.Data.List.Basic

/-!
# `Toml.Grammar` — TOML documents, line by line

A reader for documents of tables with bare names and pairs of a bare key and a boolean, a decimal number or a basic string,
after TOML 1.0. Lines end with a line feed. What the language has beyond this (arrays, inline tables, other strings and
numbers, dates, quoted and dotted keys) is not read.

A document is read as its settings: the path of a table, a key, a value. A table or a key that comes twice makes it invalid.

## Contents
- `chars`, `value`, `line`, `read`: the reader.
- `quoted`: strings written with a backslash before quotes and backslashes only; `chars_quoted`: they are read back unless they
  have a control character. `stringLine`, `lines_stringLine`: so are lines that give a key such a string.
- `linesOf`, `read_unlines`: documents made of lines.
-/

namespace Toml

/-- A document, or a part of one. -/
abbrev Text := List Char

/-- A value that fits on a line. -/
inductive Value
  | boolean (b : Bool)
  | integer (n : Nat)
  | string (s : Text)
deriving DecidableEq, Repr

/-- What a line may hold. -/
inductive Line
  | blank
  | table (path : List Text)
  | pair (key : Text) (value : Value)
deriving DecidableEq, Repr

/-- A table, a key in it, and its value. -/
abbrev Setting := (List Text × Text) × Value

/-! ## Tokens -/

/-- A control character other than the tab. -/
def isControl (c : Char) : Bool := (decide (c.toNat < 32) && c != '\t') || c.toNat == 127

/-- A character of a key without quotes. -/
def isBareKeyChar (c : Char) : Bool := c.isAlphanum || c == '_' || c == '-'

/-- Blank or tab. -/
def isBlank (c : Char) : Bool := c == ' ' || c == '\t'

/-- The text after the blanks. -/
def skip (t : Text) : Text := t.dropWhile isBlank

/-- Nothing more on this line, or a comment. -/
def isOver (t : Text) : Bool :=
  match skip t with
  | []        => true
  | c :: rest => c == '#' && rest.all (fun d => !isControl d)

/-! ## Strings -/

/-- The value of a hexadecimal digit, small or capital. -/
def hexDigit (c : Char) : Option Nat :=
  if '0' ≤ c ∧ c ≤ '9' then some (c.toNat - 48)
  else if 'A' ≤ c ∧ c ≤ 'F' then some (c.toNat - 55)
  else if 'a' ≤ c ∧ c ≤ 'f' then some (c.toNat - 87)
  else none

/-- The character that some digits name. -/
def scalar (digits : Text) : Option Char := do
  let n := (← digits.mapM hexDigit).foldl (fun n d => 16 * n + d) 0
  if n.isValidChar then some (Char.ofNat n) else none

/-- What a backslash and one more character name. -/
def shortEscape (e : Char) : Option Char :=
  if e = '"' ∨ e = '\\' then some e
  else if e = 'b' then some (Char.ofNat 8)
  else if e = 't' then some '\t'
  else if e = 'n' then some '\n'
  else if e = 'f' then some (Char.ofNat 12)
  else if e = 'r' then some '\r'
  else none

/-- The string up to the closing quote, and what comes after that. -/
def chars : Text → Option (Text × Text)
  | []     => none
  | c :: t =>
      if c = '"' then some ([], t)
      else if c = '\\' then
        match t with
        | []     => none
        | e :: t =>
            if e = 'u' then
              match t with
              | x₁ :: x₂ :: x₃ :: x₄ :: t => do
                  let c ← scalar [x₁, x₂, x₃, x₄]
                  let (s, rest) ← chars t
                  some (c :: s, rest)
              | _ => none
            else if e = 'U' then
              match t with
              | x₁ :: x₂ :: x₃ :: x₄ :: x₅ :: x₆ :: x₇ :: x₈ :: t => do
                  let c ← scalar [x₁, x₂, x₃, x₄, x₅, x₆, x₇, x₈]
                  let (s, rest) ← chars t
                  some (c :: s, rest)
              | _ => none
            else do
              let c ← shortEscape e
              let (s, rest) ← chars t
              some (c :: s, rest)
      else if isControl c then none
      else do
        let (s, rest) ← chars t
        some (c :: s, rest)

/-! ## Lines -/

/-- A value and the text after it. -/
def value (t : Text) : Option (Value × Text) :=
  match skip t with
  | []     => none
  | c :: t =>
      if c = '"' then
        -- three quotes begin a string of several lines
        if ['"', '"'].isPrefixOf t then none else (chars t).map (fun (s, rest) => (.string s, rest))
      else if "true".toList.isPrefixOf (c :: t) then some (.boolean true, (c :: t).drop 4)
      else if "false".toList.isPrefixOf (c :: t) then some (.boolean false, (c :: t).drop 5)
      else
        let digits := (c :: t).takeWhile Char.isDigit
        if digits = [] ∨ (digits.length ≠ 1 ∧ c = '0') then none
        else some (.integer (Nat.ofDigitChars 10 digits 0), (c :: t).dropWhile Char.isDigit)

/-- The name of a table, after the opening bracket. -/
def tableName (t : Text) : Option Line :=
  match t.dropWhile (· != ']') with
  | []        => none
  | _ :: rest =>
      let path := (t.takeWhile (· != ']')).splitOn '.'
      if isOver rest ∧ path.all (fun key => !key.isEmpty && key.all isBareKeyChar) then some (.table path) else none

/-- A key, an equals sign and a value, with nothing behind it. -/
def pairOf (t : Text) : Option Line :=
  let key := t.takeWhile isBareKeyChar
  match skip (t.dropWhile isBareKeyChar) with
  | []        => none
  | c :: rest =>
      if key = [] ∨ c ≠ '=' then none
      else
        match value rest with
        | none           => none
        | some (v, rest) => if isOver rest then some (.pair key v) else none

/-- What a line holds, if it holds something allowed. -/
def line (t : Text) : Option Line :=
  if isOver t then some .blank
  else
    match skip t with
    | '[' :: rest => tableName rest
    | t           => pairOf t

/-! ## Documents -/

/-- The settings of some lines, in the table of the path. -/
def settings : List Text → List Line → List Setting
  | _, []                       => []
  | path, .blank :: ls          => settings path ls
  | _, .table path :: ls        => settings path ls
  | path, .pair key value :: ls => ((path, key), value) :: settings path ls

/-- The tables of some lines, in order. -/
def tables : List Line → List (List Text)
  | []               => []
  | .table path :: ls => path :: tables ls
  | _ :: ls          => tables ls

/-- No table and no key comes twice. -/
def Distinct (ls : List Line) : Prop := (tables ls).Nodup ∧ ((settings [] ls).map Prod.fst).Nodup

instance (ls : List Line) : Decidable (Distinct ls) := inferInstanceAs (Decidable (_ ∧ _))

/-- **The settings of a document**, if all its lines can be read and nothing comes twice. -/
def read (t : Text) : Option (List Setting) := do
  let ls ← (t.splitOn '\n').mapM line
  if Distinct ls then some (settings [] ls) else none

/-! ## Writing strings -/

variable {s t rest key : Text} {c : Char}

/-- A string without control characters, tabs apart. -/
def Plain (s : Text) : Prop := ∀ c ∈ s, isControl c = false

instance (s : Text) : Decidable (Plain s) := List.decidableBAll _ s

theorem plain_cons : Plain (c :: s) ↔ isControl c = false ∧ Plain s := List.forall_mem_cons

theorem plain_append {s' : Text} : Plain (s ++ s') ↔ Plain s ∧ Plain s' := List.forall_mem_append

/-- A backslash before quotes and backslashes, and everything else as it is. -/
def quoted (s : Text) : Text := s.flatMap (fun c => if c = '"' ∨ c = '\\' then ['\\', c] else [c])

theorem quoted_cons : quoted (c :: s) = (if c = '"' ∨ c = '\\' then ['\\', c] else [c]) ++ quoted s := List.flatMap_cons

theorem quoted_append {s' : Text} : quoted (s ++ s') = quoted s ++ quoted s' := List.flatMap_append

/-- A character that needs no escape is read as itself. -/
theorem chars_cons (hquote : c ≠ '"') (hbackslash : c ≠ '\\') :
    chars (c :: t) = if isControl c then none else (chars t).map (fun r => (c :: r.1, r.2)) := by
  rw [chars.eq_def]
  dsimp only
  rw [if_neg hquote, if_neg hbackslash]
  cases chars t <;> rfl

/-- An escaped quote or backslash is read as the character. -/
theorem chars_escaped (hspecial : c = '"' ∨ c = '\\') :
    chars ('\\' :: c :: t) = (chars t).map (fun r => (c :: r.1, r.2)) := by
  have hescape : shortEscape c = some c := if_pos hspecial
  have hunicode : c ≠ 'u' ∧ c ≠ 'U' := by
    rcases hspecial with rfl | rfl <;> decide
  rw [chars.eq_def]
  dsimp only
  rw [if_neg (by decide), if_pos rfl, if_neg hunicode.1, if_neg hunicode.2, hescape]
  cases chars t <;> rfl

/-- **What is read of a string written so**, as far as it goes: the string, unless it has a control character. -/
theorem chars_quoted (s t : Text) :
    chars (quoted s ++ t) = if Plain s then (chars t).map (fun r => (s ++ r.1, r.2)) else none := by
  induction s with
  | nil =>
      have hplain : Plain [] := nofun
      rw [if_pos hplain]
      exact Option.map_id'.symm
  | cons c s ih =>
      rw [quoted_cons, List.append_assoc]
      by_cases hspecial : c = '"' ∨ c = '\\'
      · have hplain : isControl c = false := by
          rcases hspecial with rfl | rfl <;> decide
        have hcons : Plain (c :: s) ↔ Plain s := plain_cons.trans (and_iff_right hplain)
        rw [if_pos hspecial, List.cons_append, List.cons_append, List.nil_append, chars_escaped hspecial, ih]
        simp only [hcons]
        split
        · rw [Option.map_map]
          rfl
        · rfl
      · obtain ⟨hquote, hbackslash⟩ := not_or.mp hspecial
        rw [if_neg hspecial, List.cons_append, List.nil_append, chars_cons hquote hbackslash, ih]
        cases hcontrol : isControl c with
        | true  => rw [if_pos rfl, if_neg (fun h => Bool.false_ne_true ((plain_cons.mp h).1.symm.trans hcontrol))]
        | false =>
            have hcons : Plain (c :: s) ↔ Plain s := plain_cons.trans (and_iff_right hcontrol)
            simp only [hcons, Bool.false_eq_true, if_false]
            split
            · rw [Option.map_map]
              rfl
            · rfl

/-! ## Writing lines -/

/-- A key that needs no quotes. -/
def IsBareKey (key : Text) : Prop := key ≠ [] ∧ key.all isBareKeyChar = true

instance (key : Text) : Decidable (IsBareKey key) := inferInstanceAs (Decidable (_ ∧ _))

theorem IsBareKey.bare (hkey : IsBareKey key) : ∀ c ∈ key, isBareKeyChar c = true := List.all_eq_true.mp hkey.2

theorem IsBareKey.not_mem (hkey : IsBareKey key) (hc : isBareKeyChar c = false) : c ∉ key := by
  intro hmem
  exact Bool.false_ne_true (hc.symm.trans (hkey.bare c hmem))

/-- The name of a table in another. -/
theorem line_table {name : Text} (hname : IsBareKey name) (hkey : IsBareKey key) :
    line ('[' :: (name ++ '.' :: (key ++ [']']))) = some (.table [name, key]) := by
  have hover : isOver ('[' :: (name ++ '.' :: (key ++ [']']))) = false := rfl
  have hskip : skip ('[' :: (name ++ '.' :: (key ++ [']']))) = '[' :: (name ++ '.' :: (key ++ [']'])) := rfl
  have hinside : ∀ c ∈ name ++ '.' :: key, (c != ']') = true := by
    intro c hc
    rw [bne_iff_ne]
    rintro rfl
    rcases List.mem_append.mp hc with h | h
    · exact hname.not_mem (by decide) h
    · rcases List.mem_cons.mp h with h | h
      · exact absurd h (by decide)
      · exact hkey.not_mem (by decide) h
  have htext : name ++ '.' :: (key ++ [']']) = (name ++ '.' :: key) ++ [']'] := by
    rw [List.append_assoc, List.cons_append]
  have htake : (name ++ '.' :: (key ++ [']'])).takeWhile (· != ']') = name ++ '.' :: key := by
    rw [htext, List.takeWhile_append_of_pos hinside, List.takeWhile_cons, if_neg (by decide), List.append_nil]
  have hdrop : (name ++ '.' :: (key ++ [']'])).dropWhile (· != ']') = [']'] := by
    rw [htext, List.dropWhile_append_of_pos hinside, List.dropWhile_cons, if_neg (by decide)]
  have hpath : (name ++ '.' :: key).splitOn '.' = [name, key] := by
    rw [List.splitOn_append_cons_self, List.splitOn_eq_singleton (hname.not_mem (by decide)),
      List.splitOn_eq_singleton (hkey.not_mem (by decide)), List.singleton_append]
  have hbare : [name, key].all (fun k => !k.isEmpty && k.all isBareKeyChar) = true := by
    have hone : ∀ {k : Text}, IsBareKey k → (!k.isEmpty && k.all isBareKeyChar) = true := by
      intro k hk
      rw [Bool.and_eq_true, Bool.not_eq_true', List.isEmpty_eq_false_iff]
      exact hk
    rw [List.all_cons, List.all_cons, List.all_nil, hone hname, hone hkey]
    rfl
  rw [line, hover, if_neg Bool.false_ne_true, hskip]
  show tableName (name ++ '.' :: (key ++ [']'])) = _
  rw [tableName, htake, hdrop, hpath]
  dsimp only
  rw [if_pos ⟨rfl, hbare⟩]

/-- A key and a string. -/
def stringLine (key s : Text) : Text := key ++ '=' :: '"' :: (quoted s ++ ['"'])

/-- A line that begins with a key is not over, and not a table. -/
theorem line_key (hkey : IsBareKey key) : line (key ++ t) = pairOf (key ++ t) := by
  cases key with
  | nil => exact absurd rfl hkey.1
  | cons c key =>
      have hc := hkey.bare c List.mem_cons_self
      have hblank : isBlank c = false := by
        by_contra h
        rw [Bool.not_eq_false, isBlank, Bool.or_eq_true, beq_iff_eq, beq_iff_eq] at h
        rcases h with rfl | rfl <;> exact absurd hc (by decide)
      have hskip : skip (c :: (key ++ t)) = c :: (key ++ t) := by
        rw [skip, List.dropWhile_cons, if_neg (by rw [hblank]; exact Bool.false_ne_true)]
      have hhash : c ≠ '#' := by
        rintro rfl
        exact absurd hc (by decide)
      have hbracket : c ≠ '[' := by
        rintro rfl
        exact absurd hc (by decide)
      have hover : isOver (c :: (key ++ t)) = false := by
        rw [isOver, hskip]
        dsimp only
        rw [beq_false_of_ne hhash, Bool.false_and]
      rw [List.cons_append, line, hover, if_neg Bool.false_ne_true, hskip]
      split
      · rename_i heq
        exact absurd (List.cons.inj heq).1 hbracket
      · rfl

/-- The value of a key, up to the end of the line. -/
theorem line_pair (hkey : IsBareKey key) :
    line (key ++ '=' :: t) = (value t).bind (fun r => if isOver r.2 then some (.pair key r.1) else none) := by
  have hstop : isBareKeyChar '=' = false := by decide
  have htake : (key ++ '=' :: t).takeWhile isBareKeyChar = key := by
    rw [List.takeWhile_append_of_pos hkey.bare, List.takeWhile_cons, if_neg (by rw [hstop]; exact Bool.false_ne_true),
      List.append_nil]
  have hdrop : (key ++ '=' :: t).dropWhile isBareKeyChar = '=' :: t := by
    rw [List.dropWhile_append_of_pos hkey.bare, List.dropWhile_cons, if_neg (by rw [hstop]; exact Bool.false_ne_true)]
  have hskip : skip ('=' :: t) = '=' :: t := rfl
  rw [line_key hkey, pairOf, htake, hdrop, hskip]
  dsimp only
  rw [if_neg (fun h => h.elim hkey.1 (fun h => h rfl))]
  cases value t <;> rfl

/-- A string of one line after its opening quote. -/
theorem value_quoted (s t : Text) (ht : ['"', '"'].isPrefixOf (quoted s ++ t) = false) :
    value ('"' :: (quoted s ++ t)) = if Plain s then (chars t).map (fun r => (.string (s ++ r.1), r.2)) else none := by
  have hskip : skip ('"' :: (quoted s ++ t)) = '"' :: (quoted s ++ t) := rfl
  rw [value, hskip]
  dsimp only
  rw [if_pos rfl, ht, if_neg Bool.false_ne_true, chars_quoted]
  split
  · rw [Option.map_map]
    rfl
  · rfl

/-- A quoted string does not begin with a quote. -/
theorem quoted_head (s : Text) (ht : ['"', '"'].isPrefixOf t = false) : ['"', '"'].isPrefixOf (quoted s ++ t) = false := by
  cases s with
  | nil => exact ht
  | cons c s =>
      rw [quoted_cons, List.append_assoc]
      by_cases hspecial : c = '"' ∨ c = '\\'
      · rw [if_pos hspecial]
        rfl
      · have hquote : ('"' == c) = false := beq_false_of_ne (fun h => hspecial (Or.inl h.symm))
        rw [if_neg hspecial, List.cons_append, List.isPrefixOf_cons_cons, hquote, Bool.false_and]

/-- A line that gives a key a quoted string is read as that, unless a control character is in it. -/
theorem line_stringLine (hkey : IsBareKey key) :
    line (stringLine key s) = if Plain s then some (.pair key (.string s)) else none := by
  have hend : chars ['"'] = some ([], []) := rfl
  rw [stringLine, line_pair hkey, value_quoted s ['"'] (quoted_head s rfl), hend]
  split
  · rw [Option.map_some, Option.bind_some, List.append_nil]
    rfl
  · rfl

/-- A string that is not closed on its line. -/
theorem line_open (hkey : IsBareKey key) (s : Text) : line (key ++ '=' :: '"' :: quoted s) = none := by
  have hvalue := value_quoted s [] (quoted_head s rfl)
  have hend : chars [] = none := rfl
  rw [List.append_nil, hend, Option.map_none, ite_self] at hvalue
  rw [line_pair hkey, hvalue, Option.bind_none]

/-- Quoting neither adds nor removes an end of line. -/
theorem newline_mem_quoted : '\n' ∈ quoted s ↔ '\n' ∈ s := by
  induction s with
  | nil => exact Iff.rfl
  | cons c s ih =>
      rw [quoted_cons, List.mem_append, List.mem_cons, ih]
      refine or_congr_left ?_
      by_cases hspecial : c = '"' ∨ c = '\\'
      · rw [if_pos hspecial]
        rcases hspecial with rfl | rfl <;> decide
      · rw [if_neg hspecial, List.mem_singleton]

/-- A string without one stays on its line. -/
theorem newline_not_mem_string (hkey : IsBareKey key) (hs : '\n' ∉ s) : '\n' ∉ key ++ '=' :: '"' :: quoted s := by
  rw [List.mem_append, List.mem_cons, List.mem_cons, newline_mem_quoted]
  rintro (h | h | h | h)
  · exact hkey.not_mem (by decide) h
  · exact absurd h (by decide)
  · exact absurd h (by decide)
  · exact hs h

/-! ## Documents made of lines -/

/-- The lines of texts that may hold line feeds themselves. -/
def linesOf (texts : List Text) : Option (List Line) := (texts.flatMap (·.splitOn '\n')).mapM line

/-- Lines are read one after the other. -/
theorem linesOf_append (texts texts' : List Text) :
    linesOf (texts ++ texts') = (linesOf texts).bind (fun ls => (linesOf texts').map (ls ++ ·)) := by
  unfold linesOf
  rw [List.flatMap_append, List.mapM_append]
  cases (texts.flatMap (·.splitOn '\n')).mapM line with
  | none    => rfl
  | some ls => cases (texts'.flatMap (·.splitOn '\n')).mapM line <;> rfl

/-- **A line that gives a key a string** is read as that, unless the string has a control character. -/
theorem linesOf_stringLine (hkey : IsBareKey key) :
    linesOf [stringLine key s] = if Plain s then some [.pair key (.string s)] else none := by
  unfold linesOf
  rw [List.flatMap_singleton]
  by_cases hnewline : '\n' ∈ s
  · -- the string is broken at its first line feed
    have hplain : ¬ Plain s := fun h => absurd (h '\n' hnewline) (by decide)
    obtain ⟨a, b, rfl, ha⟩ := List.eq_append_cons_of_mem hnewline
    have hfirst : '\n' ∉ key ++ '=' :: '"' :: quoted a := newline_not_mem_string hkey ha
    have hbroken : stringLine key (a ++ '\n' :: b) = (key ++ '=' :: '"' :: quoted a) ++ '\n' :: (quoted b ++ ['"']) := by
      have hfeed : quoted ('\n' :: b) = '\n' :: quoted b := quoted_cons
      rw [stringLine, quoted_append, hfeed]
      simp only [List.append_assoc, List.cons_append]
    rw [hbroken, List.splitOn_append_cons_self, List.splitOn_eq_singleton hfirst, if_neg hplain, List.singleton_append,
      List.mapM_cons, line_open hkey]
    rfl
  · have hone : '\n' ∉ stringLine key s := by
      have hopen := newline_not_mem_string hkey hnewline
      rw [stringLine, ← List.cons_append, ← List.cons_append, ← List.append_assoc, List.mem_append, not_or]
      exact ⟨hopen, by decide⟩
    rw [List.splitOn_eq_singleton hone, List.mapM_cons, line_stringLine hkey]
    split <;> rfl

/-- A document is the lines of its texts, each ended by a line feed. -/
theorem read_unlines (texts : List Text) :
    read (texts.flatMap (· ++ ['\n'])) =
      (linesOf texts).bind (fun ls => if Distinct (ls ++ [.blank]) then some (settings [] (ls ++ [.blank])) else none) := by
  have hsplit : (texts.flatMap (· ++ ['\n'])).splitOn '\n' = texts.flatMap (·.splitOn '\n') ++ [[]] := by
    induction texts with
    | nil => rfl
    | cons text texts ih =>
        rw [List.flatMap_cons, List.flatMap_cons, List.append_assoc, List.singleton_append, List.splitOn_append_cons_self, ih,
          List.append_assoc]
  have hblank : [[]].mapM line = some [.blank] := rfl
  rw [read, hsplit, List.mapM_append, hblank]
  unfold linesOf
  cases (texts.flatMap (·.splitOn '\n')).mapM line <;> rfl

end Toml
