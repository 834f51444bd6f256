/-!
# Numerals

A numeral is an optional plus sign and one or more digits of its base. It is read only if its
value stays below a bound; leading zeros do not matter.

## Main definitions

* `Numeral.digit?` — the value of a digit of a base.
* `Numeral.value?`, `Numeral.read?` — the value of digits, and of a numeral below a bound.
* `Numeral.padded` — decimal digits with zeros in front.
-/

set_option autoImplicit false

namespace CopyTrial.Numeral

/-- The value of a character as a digit of a base up to 16; letters may have either case. -/
def digit? (base : Nat) (c : Char) : Option Nat :=
  let value :=
    if '0' ≤ c ∧ c ≤ '9' then some (c.toNat - '0'.toNat)
    else if 'a' ≤ c ∧ c ≤ 'f' then some (c.toNat - 'a'.toNat + 10)
    else if 'A' ≤ c ∧ c ≤ 'F' then some (c.toNat - 'A'.toNat + 10)
    else none
  value.filter (· < base)

/-- The value of digits that follow others of value `sofar`, if it stays below the bound all
along. -/
def valueFrom? (base bound sofar : Nat) : List Char → Option Nat
  | [] => some sofar
  | c :: rest => do
    let d ← digit? base c
    let longer := sofar * base + d
    if longer < bound then valueFrom? base bound longer rest else none

/-- The value of one or more digits. -/
def value? (base bound : Nat) (cs : List Char) : Option Nat :=
  if cs.isEmpty then none else valueFrom? base bound 0 cs

/-- The value of a numeral below a bound. -/
def read? (base bound : Nat) : List Char → Option Nat
  | '+' :: cs => value? base bound cs
  | cs => value? base bound cs

/-- Decimal digits with zeros in front up to a width. -/
def padded (width n : Nat) : String :=
  let digits := Nat.toDigits 10 n
  String.ofList (List.replicate (width - digits.length) '0' ++ digits)

end CopyTrial.Numeral
