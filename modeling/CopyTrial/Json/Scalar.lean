import CopyTrial.Json.Reader

/-!
# Reading literals, numbers and texts

## Main definitions

* `Json.word` — a literal such as `null`.
* `Json.number` — a number: an integer literal that fits a 64-bit word stays an integer, every
  other number is a double.
* `Json.textTail` — a text after its opening quote.

## Design

The digits of a number are taken as long as they fit 64 bits. Of the digits that do not fit, those
before the point raise the power of ten and those after it are dropped. The double is the
significand, rounded, times or divided by that power.
-/

set_option autoImplicit false

namespace CopyTrial.Json

/-- Passes the given letters. -/
def word : List Char → Reader Unit
  | [] => pure ()
  | a :: rest => do
    match ← peek with
    | none => failHere .endInValue
    | some c => if c = a then do advance; word rest else failAhead .wantsIdent

/-! ### Numbers -/

/-- The value of a decimal digit. -/
def digitValue (c : Char) : Nat := c.toNat - '0'.toNat

/-- Appends digits to a significand as long as it fits 64 bits; gives the digits left. -/
def absorb (significand : Nat) : List Char → Nat × List Char
  | [] => (significand, [])
  | d :: rest =>
    let longer := 10 * significand + digitValue d
    if longer < UInt64.size then absorb longer rest else (significand, d :: rest)

/-- The whole part of a number: digits, of which a zero can only be the sole one. -/
def wholePart : Reader (List Char) := do
  match ← peek with
  | none => failHere .endInValue
  | some c =>
    if c = '0' then
      advance
      match ← peek with
      | some d => if d.isDigit then failAhead .badNumber else pure ['0']
      | none => pure ['0']
    else if c.isDigit then digits
    else failAhead .badNumber

/-- The digits after the point, if there is a point. -/
def fractionPart : Reader (Option (List Char)) := do
  if (← peek) = some '.' then
    advance
    let ds ← digits
    if ds.isEmpty then
      match ← peek with
      | none => failHere .endInValue
      | some _ => failAhead .badNumber
    else pure (some ds)
  else pure none

/-- An exponent as written: its sign and its digits, with the cursor before the digits. -/
structure Exponent where
  negative : Bool
  digits : List Char
  before : Cursor

/-- The exponent, if there is one. -/
def exponentPart : Reader (Option Exponent) := do
  let mark ← peek
  if mark = some 'e' || mark = some 'E' then
    advance
    let sign ← peek
    if sign = some '+' || sign = some '-' then advance
    match ← peek with
    | none => failHere .endInValue
    | some c =>
      if c.isDigit then
        let before ← get
        let ds ← digits
        pure (some ⟨sign = some '-', ds, before⟩)
      else failAhead .badNumber
  else pure none

/-- The number of leading digits whose value exceeds the greatest exponent, if any does. -/
def exponentExcess (value count : Nat) : List Char → Option Nat
  | [] => none
  | d :: rest =>
    let longer := 10 * value + digitValue d
    if longer ≤ 2147483647 then exponentExcess longer (count + 1) rest else some (count + 1)

/-- The double nearest to `10 ^ e`, for `e` up to 308. -/
def powerOfTen (e : Nat) : Float := Float.ofScientific 1 false e

/-- Divides by `10 ^ e`, in steps when the power itself is out of range. -/
def divideByPower (x : Float) (e : Nat) : Float :=
  if h : e ≤ 308 then x / powerOfTen e
  else if x == 0 then x
  else divideByPower (x / powerOfTen 308) (e - 308)
termination_by e

/-- The magnitude `significand * 10 ^ exponent`, unless it is out of range. -/
def magnitude? (significand : Nat) (exponent : Int) : Option Float :=
  let x := (UInt64.ofNat significand).toFloat
  if exponent < 0 then some (divideByPower x exponent.natAbs)
  else if exponent ≤ 308 then
    let y := x * powerOfTen exponent.toNat
    if y.isInf then none else some y
  else if x == 0 then some x
  else none

/-- A double with its sign. -/
def signedDouble (negative : Bool) (x : Float) : Json :=
  .double (if negative then -x else x)

/-- The integer that a sign and a significand denote; a double when it fits no word, and for
minus zero. -/
def signedInteger (negative : Bool) (significand : Nat) : Json :=
  if negative then
    if significand = 0 || UInt64.size / 2 < significand then
      signedDouble true (UInt64.ofNat significand).toFloat
    else .integer (-(significand : Int))
  else .integer significand

/-- A number after its sign. -/
def unsignedNumber (negative : Bool) : Reader Json := do
  let whole ← wholePart
  let fraction ← fractionPart
  let exponent ← exponentPart
  let (significand, left) := absorb 0 whole
  if left.isEmpty && fraction.isNone && exponent.isNone then
    pure (signedInteger negative significand)
  else
    let taken := fraction.getD []
    let (significand, dropped) := absorb significand taken
    let scale : Int := left.length - (taken.length - dropped.length : Nat)
    match exponent with
    | none =>
      match magnitude? significand scale with
      | some x => pure (signedDouble negative x)
      | none => failHere .numberOutOfRange
    | some e =>
      match exponentExcess 0 0 e.digits with
      | some count =>
        if significand ≠ 0 ∧ e.negative = false then
          fun _ => .error (.located .numberOutOfRange (e.before.skip count).position)
        else pure (signedDouble negative 0)
      | none =>
        let shift : Int := Nat.ofDigitChars 10 e.digits 0
        match magnitude? significand (if e.negative then scale - shift else scale + shift) with
        | some x => pure (signedDouble negative x)
        | none => failHere .numberOutOfRange

/-- A number, which starts with a minus sign or a digit. -/
def number : Reader Json := do
  if (← peek) = some '-' then
    advance
    unsignedNumber true
  else unsignedNumber false

/-! ### Texts -/

/-- The value of a hexadecimal digit. -/
def hexValue? (c : Char) : Option Nat :=
  if c.isDigit then some (c.toNat - '0'.toNat)
  else if 'a' ≤ c ∧ c ≤ 'f' then some (c.toNat - 'a'.toNat + 10)
  else if 'A' ≤ c ∧ c ≤ 'F' then some (c.toNat - 'A'.toNat + 10)
  else none

/-- The value of four hexadecimal digits. -/
def hexQuadValue? (a b c d : Char) : Option Nat := do
  let a ← hexValue? a
  let b ← hexValue? b
  let c ← hexValue? c
  let d ← hexValue? d
  pure (((a * 16 + b) * 16 + c) * 16 + d)

/-- Four hexadecimal digits are missing. The next four bytes are looked at together, so the place
is after all of them. -/
def hexQuadMissed (c : Cursor) : Failure :=
  if (String.ofList c.rest).utf8ByteSize < 4 then
    .located .endInText (c.skip c.rest.length).position
  else .located .badEscape (c.position.afterBytes 4 c.rest)

/-- Four hexadecimal digits. -/
def hexQuad : Reader Nat := fun cursor =>
  match cursor.rest with
  | a :: b :: c :: d :: _ =>
    match hexQuadValue? a b c d with
    | some n => .ok (n, cursor.skip 4)
    | none => .error (hexQuadMissed cursor)
  | _ => .error (hexQuadMissed cursor)

/-- Passes the character that must continue a pair of surrogates. -/
def pairMark (mark : Char) : Reader Unit := do
  match ← peek with
  | none => failHere .endInText
  | some c => if c = mark then advance else failAhead .cutSurrogate

/-- The character of a code-unit escape after its `u`; two surrogates form one character. -/
def unitEscape : Reader Char := do
  let high ← hexQuad
  if 0xDC00 ≤ high ∧ high ≤ 0xDFFF then failHere .loneSurrogate
  else if 0xD800 ≤ high ∧ high ≤ 0xDBFF then do
    pairMark '\\'
    pairMark 'u'
    let low ← hexQuad
    if 0xDC00 ≤ low ∧ low ≤ 0xDFFF then
      pure (Char.ofNat (0x10000 + (high - 0xD800) * 0x400 + (low - 0xDC00)))
    else failHere .loneSurrogate
  else pure (Char.ofNat high)

/-- The character that a letter stands for after a backslash. -/
def letterEscape? (c : Char) : Option Char :=
  match c with
  | '"' => some '"'
  | '\\' => some '\\'
  | '/' => some '/'
  | 'b' => some '\x08'
  | 'f' => some '\x0c'
  | 'n' => some '\n'
  | 'r' => some '\r'
  | 't' => some '\t'
  | _ => none

/-- The character of an escape after its backslash. -/
def escaped : Reader Char := do
  match ← peek with
  | none => failHere .endInText
  | some c =>
    if c = 'u' then
      advance
      unitEscape
    else match letterEscape? c with
      | some a => do
        advance
        pure a
      | none => failAhead .badEscape

/-- The characters of a text up to its closing quote, by at most `fuel` steps. -/
def textChars : Nat → Reader (List Char)
  | 0 => failHere .endInText
  | fuel + 1 => do
    match ← peek with
    | none => failHere .endInText
    | some c =>
      if c = '"' then
        advance
        pure []
      else if c = '\\' then
        advance
        let a ← escaped
        let rest ← textChars fuel
        pure (a :: rest)
      else if c.toNat < 0x20 then failAhead .controlCharacter
      else
        advance
        let rest ← textChars fuel
        pure (c :: rest)

/-- A text after its opening quote; each step passes a character, so the length suffices. -/
def textTail : Reader String := fun c =>
  ((fun chars => String.ofList chars) <$> textChars (c.rest.length + 1)) c

end CopyTrial.Json
