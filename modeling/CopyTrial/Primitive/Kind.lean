import CopyTrial.Failure
import CopyTrial.Primitive
import CopyTrial.Numeral
import CopyTrial.Text.Blank

/-!
# Kinds of primitives

The primitives that can be chosen by name.

## Main definitions

* `Kind` — a choice, and `Kind.label`, its name.
* `Kind.read?` — the choice that a text names: blanks around it and the case of letters do not
  matter, and some choices have several names.
* `Kind.resolve` — the choice that a text names, or the failure that it names none.
* `Kind.primitive` — the primitive chosen.
* `Kind.catalog` — the names with a description.
-/

set_option autoImplicit false

namespace CopyTrial

/-- A primitive that can be chosen by name. -/
inductive Kind where
  | reference
  | wordwise
  | noop
  /-- Copies at most so many bytes. -/
  | truncate (limit : UInt64)
  /-- The external routine behind its foreign boundary. -/
  | external
  deriving DecidableEq, Repr

namespace Kind

/-- The name of a choice. -/
def label : Kind → String
  | .reference => "reference"
  | .wordwise => "wordwise"
  | .noop => "noop"
  | .truncate limit => "truncate:" ++ Nat.repr limit.toNat
  | .external => "extern"

/-- The primitive of a choice. -/
def primitive : Kind → Primitive
  | .reference => .reference
  | .wordwise => .wordwise
  | .noop => .noop
  | .truncate limit => .truncate limit
  | .external => .foreign "extern" Routine.external

/-- The choices that have fixed names. -/
def aliases : List (String × Kind) :=
  [("reference", .reference), ("ref", .reference), ("memcpy", .reference),
    ("wordwise", .wordwise), ("words", .wordwise), ("noop", .noop), ("none", .noop),
    ("extern", .external), ("memcpy_c", .external), ("ffi", .external)]

/-- The choice that characters in lower case name. -/
def readName? (name : List Char) : Option Kind :=
  match aliases.lookup (String.ofList name) with
  | some kind => some kind
  | none =>
    let start := "truncate:".toList
    if start.isPrefixOf name then
      (Numeral.read? 10 UInt64.size (name.drop start.length)).map fun n =>
        .truncate (UInt64.ofNat n)
    else none

/-- The choice that a text names. -/
def read? (raw : String) : Option Kind :=
  readName? ((Text.trimChars raw.toList).map Char.toLower)

/-- The choice that a text names, or the failure that it names none. -/
def resolve (raw : String) : Except Failure Kind :=
  match read? raw with
  | some kind => .ok kind
  | none => .error (.unknownPrimitive raw)

/-- The names that can be chosen, with a description. -/
def catalog : List (String × String) :=
  [("reference", "safe slice copy (memcpy)"),
    ("wordwise", "64-bit word copy with byte tail"),
    ("noop", "leaves the destination untouched"),
    ("truncate:<n>", "copies only the first n bytes"),
    ("extern", "memcpy_c across the extern \"C\" boundary")]

end Kind

end CopyTrial
