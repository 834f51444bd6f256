import CopyTrial.Json.Skip

/-!
# Codecs

A codec says how values of a type stand in documents: how they are written, how they are read from
a text as it is scanned, and how they are read from a document that is already there. The two ways
of reading accept the same documents and differ in the place that an error has.

## Main definitions

* `Codec` — the three directions for one type.
* `Codec.text`, `Codec.flag`, `Codec.unsigned` — scalars.
* `Codec.list`, `Codec.optional`, `Codec.freeForm` — lists, absent values, free-form values.
* `Codec.parse`, `Codec.compact`, `Codec.pretty` — whole texts.
-/

set_option autoImplicit false

namespace CopyTrial

open Json

/-- How values of a type stand in documents. -/
structure Codec (α : Type) where
  /-- The document of a value. -/
  write : α → Json
  /-- Reads a value from a text, inside which so many containers may be nested. -/
  read : Nat → Reader α
  /-- Reads a value from a document. -/
  decode : Json → Except Cause α

namespace Codec

variable {α : Type}

/-- The value that a text holds. -/
def parse (codec : Codec α) (text : String) : Except Error α :=
  whole (codec.read greatestDepth) text

/-- A value on one line. -/
def compact (codec : Codec α) (a : α) : String := (codec.write a).compact

/-- A value with one element or member a line. -/
def pretty (codec : Codec α) (a : α) : String := (codec.write a).pretty

/-- Takes what was decoded; an error is located at the place reached. -/
def settle (result : Except Cause α) : Reader α :=
  match result with
  | .ok a => pure a
  | .error cause => failHere cause

/-- A type whose values stand as scalars. A container in their place is not entered. -/
def scalar (wanted : String) (write : α → Json) (decode : Json → Except Cause α) : Codec α where
  write := write
  read _ := dispatch (fun j => settle (decode j)) (failHere (.wrongType .sequence wanted))
    (failHere (.wrongType .map wanted))
  decode := decode

/-- A text. -/
def text : Codec String :=
  scalar "a string" .text fun
    | .text s => .ok s
    | j => .error (.wrongType j.found "a string")

/-- A truth value. -/
def flag : Codec Bool :=
  scalar "a boolean" .boolean fun
    | .boolean b => .ok b
    | j => .error (.wrongType j.found "a boolean")

/-- The absence of content. -/
def unit : Codec Unit :=
  scalar "unit" (fun _ => .null) fun
    | .null => .ok ()
    | j => .error (.wrongType j.found "unit")

/-- A whole number below a bound, with the name of its type. -/
def unsigned (wanted : String) (bound : Nat) (ofNat : Nat → α) (toNat : α → Nat) : Codec α :=
  scalar wanted (fun a => .integer (toNat a)) fun
    | .integer i =>
      if 0 ≤ i ∧ i < bound then .ok (ofNat i.toNat) else .error (.wrongValue (.integer i) wanted)
    | j => .error (.wrongType j.found wanted)

/-- A byte. -/
def byte : Codec UInt8 := unsigned "u8" UInt8.size UInt8.ofNat UInt8.toNat

/-- A word of 32 bits. -/
def word32 : Codec UInt32 := unsigned "u32" UInt32.size UInt32.ofNat UInt32.toNat

/-- A word of 64 bits. -/
def word64 : Codec UInt64 := unsigned "u64" UInt64.size UInt64.ofNat UInt64.toNat

/-- A length or an index, of 64 bits. -/
def size : Codec UInt64 := unsigned "usize" UInt64.size UInt64.ofNat UInt64.toNat

/-- A list. -/
def list (codec : Codec α) : Codec (List α) where
  write as := .array (as.map codec.write)
  read depth := dispatch (fun j => failHere (.wrongType j.found "a sequence"))
    (nested listEnd (fun inner => elements (codec.read inner)) depth)
    (failHere (.wrongType .map "a sequence"))
  decode
    | .array js => js.mapM codec.decode
    | j => .error (.wrongType j.found "a sequence")

/-- A value, or its absence, which stands as `null`. -/
def optional (codec : Codec α) : Codec (Option α) where
  write
    | some a => codec.write a
    | none => .null
  read depth := do
    blanks
    if (← peek) = some 'n' then
      advance
      word ['u', 'l', 'l']
      pure none
    else some <$> codec.read depth
  decode
    | .null => .ok none
    | j => some <$> codec.decode j

/-- A free-form value. -/
def freeForm : Codec FreeForm where
  write v := v.json
  read depth := FreeForm.ofJson <$> value depth
  decode j := .ok (FreeForm.ofJson j)

end Codec

end CopyTrial
