import CopyTrial.Failure
import CopyTrial.Numeral
import CopyTrial.Text.Blank

/-!
# Fill bytes as text

## Main definitions

* `Fill.read?` — the byte that a text names, in decimal or, after `0x`, in hexadecimal.
* `Fill.resolve` — the byte that a text names, or the failure that it names none.
-/

set_option autoImplicit false

namespace CopyTrial.Fill

/-- The byte that characters without blanks around them name. After `0x` or `0X` the digits are
hexadecimal and underscores may stand anywhere among them. -/
def readChars? : List Char → Option Nat
  | '0' :: 'x' :: rest => Numeral.read? 16 256 (rest.filter (· != '_'))
  | '0' :: 'X' :: rest => Numeral.read? 16 256 (rest.filter (· != '_'))
  | cs => Numeral.read? 10 256 cs

/-- The byte that a text names. -/
def read? (raw : String) : Option UInt8 :=
  (readChars? (Text.trimChars raw.toList)).map UInt8.ofNat

/-- The byte that a text names, or the failure that it names none. -/
def resolve (raw : String) : Except Failure UInt8 :=
  match read? raw with
  | some fill => .ok fill
  | none => .error (.invalidFill raw)

end CopyTrial.Fill
