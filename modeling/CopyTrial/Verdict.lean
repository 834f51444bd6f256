import CopyTrial.Bytes

/-!
# Verdicts

Two buffers either agree on their common length or differ first at some index. The verdict of a
trial says which, and a failing one is told in a line that holds the raw bytes, or in words.

## Main definitions

* `Divergence`, `firstDivergence` — where two buffers differ first.
* `Verdict` — passing, or failing with a divergence.
* `Divergence.diagnosticLine`, `Divergence.wording` — a divergence with raw and with escaped
  bytes.
-/

set_option autoImplicit false

namespace CopyTrial

/-- The first index at which a buffer differs from what it should be, and both bytes there. -/
structure Divergence where
  index : Nat
  actual : UInt8
  expected : UInt8
  deriving DecidableEq, Repr

/-- The first divergence of two buffers of which `index` bytes have been compared. -/
def firstDivergenceFrom (index : Nat) : (expected actual : Bytes) → Option Divergence
  | e :: expected, a :: actual =>
    if e = a then firstDivergenceFrom (index + 1) expected actual else some ⟨index, a, e⟩
  | _, _ => none

/-- Where a buffer first differs from what it should be; what one of the two holds beyond the
other is not compared. -/
def firstDivergence (expected actual : Bytes) : Option Divergence :=
  firstDivergenceFrom 0 expected actual

/-- The lowercase hexadecimal escape of a byte. -/
def byteEscape (b : UInt8) : List Char := '\\' :: 'x' :: Bytes.byteHex b

/-- A byte between single quotes: a visible character stands for itself, unless it is a quote or a
backslash. -/
def byteWording (b : UInt8) : List Char :=
  if b = 0x09 then ['\\', 't']
  else if b = 0x0d then ['\\', 'r']
  else if b = 0x0a then ['\\', 'n']
  else if b = 0x27 then ['\\', '\x27']
  else if b = 0x22 then ['\\', '"']
  else if b = 0x5c then ['\\', '\\']
  else if 0x20 ≤ b ∧ b < 0x7f then [Char.ofNat b.toNat]
  else byteEscape b

namespace Divergence

/-- The line that reports a divergence, with the two bytes as they are. -/
def diagnosticLine (d : Divergence) : Bytes :=
  Bytes.ofText ("i = " ++ Nat.repr d.index ++ " got ") ++ d.actual :: Bytes.ofText " want " ++
    [d.expected, 0x0a]

/-- A divergence in words. -/
def wording (d : Divergence) : String :=
  "i = " ++ Nat.repr d.index ++ " got '" ++ String.ofList (byteWording d.actual) ++ "' want '" ++
    String.ofList (byteWording d.expected) ++ "'"

/-- What a failing trial complains about. -/
def complaint (d : Divergence) : String := "content mismatch: " ++ d.wording

end Divergence

/-- What a trial comes to. -/
inductive Verdict where
  | pass
  | fail (divergence : Divergence)
  deriving DecidableEq, Repr

namespace Verdict

/-- The verdict on a buffer that should be equal to another one. -/
def ofDivergence : Option Divergence → Verdict
  | none => .pass
  | some d => .fail d

/-- Whether the verdict is passing. -/
def passes : Verdict → Bool
  | .pass => true
  | .fail _ => false

/-- The divergence of a failing verdict. -/
def divergence : Verdict → Option Divergence
  | .pass => none
  | .fail d => some d

/-- The exit code that tells the verdict: 0 for passing, 1 for failing. -/
def exitCode : Verdict → UInt8
  | .pass => 0
  | .fail _ => 1

end Verdict

end CopyTrial
