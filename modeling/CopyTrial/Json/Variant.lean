import CopyTrial.Json.Record

/-!
# Alternatives

A value of a type with alternatives stands as the name of its alternative, or as an object whose
only member has that name and holds the content. An alternative without content may be written
either way.

## Main definitions

* `Variant` — an alternative; `Variant.bare` and `Variant.full` are those without content and
  those that hold a record.
* `Codec.variants` — the codec of a type with named alternatives.
-/

set_option autoImplicit false

namespace CopyTrial

open Json

/-- An alternative: how its content is read, and what its name alone stands for. -/
structure Variant (α : Type) where
  /-- Reads the content from a text. -/
  read : Nat → Reader α
  /-- Reads the content from a document. -/
  decode : Json → Except Cause α
  /-- The value that the name alone stands for. -/
  named : Except Cause α

namespace Variant

variable {α : Type}

/-- An alternative without content: the value itself. -/
def bare (a : α) : Variant α where
  read depth := do
    Codec.unit.read depth
    pure a
  decode j := do
    Codec.unit.decode j
    pure a
  named := .ok a

/-- An alternative made of a record. -/
def full {β : Type} (make : β → α) (type : RecordType β) : Variant α where
  read depth := make <$> type.read depth
  decode j := make <$> type.decode j
  named := .error (.wrongType .unitVariant "struct variant")

/-- The alternative with a name. -/
def choose (variants : List (String × Variant α)) (name : String) : Except Cause (Variant α) :=
  match variants.lookup name with
  | some variant => .ok variant
  | none => .error (.unknownVariant name (variants.map Prod.fst))

/-- Reads an alternative that stands as an object, after its brace. -/
def readObject (variants : List (String × Variant α)) (depth : Nat) : Reader α := do
  blanks
  match ← peek with
  | none => failHere .endInObject
  | some c =>
    if c = '"' then
      let name ← memberName
      let variant ← Codec.settle (choose variants name)
      colon
      let a ← variant.read depth
      blanks
      match ← peek with
      | none => failHere .endInObject
      | some d =>
        if d = '}' then
          advance
          pure a
        else failHere .wantsValue
    else if c = '}' then failAhead .wantsValue
    else failAhead .nameNotText

/-- Reads an alternative from a text. -/
def readAny (variants : List (String × Variant α)) (depth : Nat) : Reader α := do
  blanks
  match ← peek with
  | none => failAhead .endInValue
  | some c =>
    if c = '{' then
      match depth with
      | 0 => failAhead .tooDeep
      | inner + 1 => do
        advance
        readObject variants inner
    else if c = '"' then
      let name ← memberName
      let variant ← Codec.settle (choose variants name)
      match variant.named with
      | .ok a => pure a
      | .error cause => failFloating cause
    else failAhead .wantsValue

/-- Reads an alternative from a document. -/
def decodeAny (variants : List (String × Variant α)) : Json → Except Cause α
  | .text name => do
    let variant ← choose variants name
    variant.named
  | .object [(name, j)] => do
    let variant ← choose variants name
    variant.decode j
  | .object _ => .error (.wrongValue .map "map with a single key")
  | j => .error (.wrongType j.found "string or map")

end Variant

/-- The codec of a type with named alternatives. -/
def Codec.variants {α : Type} (write : α → Json) (variants : List (String × Variant α)) :
    Codec α where
  write := write
  read := Variant.readAny variants
  decode := Variant.decodeAny variants

/-- The codec of a type whose values are names, given with all its values. -/
def Codec.names {α : Type} (name : α → String) (values : List α) : Codec α :=
  Codec.variants (fun a => .text (name a)) (values.map fun a => (name a, Variant.bare a))

end CopyTrial
