import CopyTrial.Json.Basic
import CopyTrial.Decimal.Shortest

/-!
# Writing JSON

A document is written in one of two layouts: compact, on one line without blanks, or pretty, with
one element or member a line and two blanks for each level.

## Main definitions

* `Json.quote` — a text with its quotes; only what JSON demands is escaped.
* `Json.decimalText` — the spelling of a double.
* `Json.Layout`, `Json.render` — the two layouts, and a document in one of them.
* `Json.compact`, `Json.pretty` — a whole document in each layout.
-/

set_option autoImplicit false

namespace CopyTrial.Json

/-- The lowercase hexadecimal digit of a number below sixteen. -/
def hexDigit (n : Nat) : Char := Nat.digitChar (n % 16)

/-- The characters that stand for one character between quotes: a quote, a backslash and the
control characters are escaped, all else is written as it is. -/
def escape (c : Char) : List Char :=
  if c = '"' then ['\\', '"']
  else if c = '\\' then ['\\', '\\']
  else if c = '\n' then ['\\', 'n']
  else if c = '\r' then ['\\', 'r']
  else if c = '\t' then ['\\', 't']
  else if c = '\x08' then ['\\', 'b']
  else if c = '\x0c' then ['\\', 'f']
  else if c.toNat < 0x20 then
    ['\\', 'u', '0', '0', hexDigit (c.toNat / 16), hexDigit c.toNat]
  else [c]

/-- A text between quotes. -/
def quote (s : String) : List Char :=
  '"' :: (s.toList.flatMap escape ++ ['"'])

/-- The decimal digits of an integer, after a minus sign if it is negative. -/
def integerText (i : Int) : List Char :=
  if i < 0 then '-' :: Nat.toDigits 10 i.natAbs else Nat.toDigits 10 i.natAbs

/-- How a decimal is spelled. -/
structure DecimalFormat where
  /-- The least decimal exponent that is written without a power of ten. -/
  leastPlain : Int
  /-- The first decimal exponent that is again written with a power of ten. -/
  endPlain : Int

/-- Numbers from `0.00001` up to, but not including, `10 ^ 16` are written without a power of
ten. -/
def decimalFormat : DecimalFormat := ⟨-5, 16⟩

/-- A positive decimal. Without a power of ten there is always a point and a digit after it; with
one, the point stands only between digits, and the exponent has a sign and no leading zero. -/
def scaledText (format : DecimalFormat) (d : Decimal.Scaled) : List Char :=
  let digits := Nat.toDigits 10 d.units
  let exponent := d.exponent + digits.length - 1
  if format.leastPlain ≤ exponent ∧ exponent < format.endPlain then
    if 0 ≤ d.exponent then digits ++ List.replicate d.exponent.toNat '0' ++ ['.', '0']
    else if 0 ≤ exponent then
      digits.take (exponent.toNat + 1) ++ '.' :: digits.drop (exponent.toNat + 1)
    else '0' :: '.' :: (List.replicate (-exponent - 1).toNat '0' ++ digits)
  else
    let mark := if digits.length = 1 then digits else digits.take 1 ++ '.' :: digits.drop 1
    mark ++ 'e' :: (if exponent < 0 then '-' else '+') :: Nat.toDigits 10 exponent.natAbs

/-- The spelling of a finite double: the shortest digits that read back. -/
def decimalText (x : Float) : List Char :=
  let bits := x.toBits
  let b := Decimal.Binary.ofBits bits
  let magnitude :=
    if b.significand = 0 then ['0', '.', '0']
    else scaledText decimalFormat (Decimal.shortest b)
  if bits >>> 63 = 1 then '-' :: magnitude else magnitude

/-- The spelling of a truth value. -/
def booleanText (b : Bool) : List Char :=
  if b then ['t', 'r', 'u', 'e'] else ['f', 'a', 'l', 's', 'e']

/-- Where blanks stand in a written document. -/
inductive Layout where
  /-- All on one line, without blanks. -/
  | compact
  /-- One element or member a line, two blanks for each level, one blank after a colon. -/
  | pretty
  deriving DecidableEq

/-- The blanks before something that stands inside `level` containers. -/
def Layout.gap : Layout → Nat → List Char
  | .compact, _ => []
  | .pretty, level => '\n' :: List.replicate (2 * level) ' '

/-- The blanks after a colon. -/
def Layout.afterColon : Layout → List Char
  | .compact => []
  | .pretty => [' ']

mutual

/-- A document that stands inside `level` containers. -/
def render (layout : Layout) (level : Nat) : Json → List Char
  | .null => ['n', 'u', 'l', 'l']
  | .boolean b => booleanText b
  | .integer i => integerText i
  | .double x => decimalText x
  | .text s => quote s
  | .array elements => '[' :: renderElements layout level elements
  | .object members => '{' :: renderMembers layout level members

/-- The elements of an array inside `level` containers, and the closing bracket. -/
def renderElements (layout : Layout) (level : Nat) : List Json → List Char
  | [] => [']']
  | j :: rest =>
    layout.gap (level + 1) ++
      (render layout (level + 1) j ++ renderMoreElements layout level rest)

/-- Elements that follow another one, and the closing bracket. -/
def renderMoreElements (layout : Layout) (level : Nat) : List Json → List Char
  | [] => layout.gap level ++ [']']
  | j :: rest =>
    ',' :: (layout.gap (level + 1) ++
      (render layout (level + 1) j ++ renderMoreElements layout level rest))

/-- The members of an object inside `level` containers, and the closing brace. -/
def renderMembers (layout : Layout) (level : Nat) : List (String × Json) → List Char
  | [] => ['}']
  | (name, j) :: rest =>
    layout.gap (level + 1) ++
      (quote name ++ ':' :: (layout.afterColon ++
        (render layout (level + 1) j ++ renderMoreMembers layout level rest)))

/-- Members that follow another one, and the closing brace. -/
def renderMoreMembers (layout : Layout) (level : Nat) : List (String × Json) → List Char
  | [] => layout.gap level ++ ['}']
  | (name, j) :: rest =>
    ',' :: (layout.gap (level + 1) ++
      (quote name ++ ':' :: (layout.afterColon ++
        (render layout (level + 1) j ++ renderMoreMembers layout level rest))))

end

/-- A document on one line. -/
def compact (j : Json) : String := String.ofList (render .compact 0 j)

/-- A document with one element or member a line. -/
def pretty (j : Json) : String := String.ofList (render .pretty 0 j)

end CopyTrial.Json
