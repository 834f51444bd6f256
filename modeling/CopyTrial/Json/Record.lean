import CopyTrial.Json.Codec

/-!
# Records

A record stands as an object, one member a field, or as an array of its fields in order. Members
of other names are passed over. A field occurs at most once; one that is not there takes its value
for that case, if it has one.

## Main definitions

* `Field` — a field: its name, its codec, and what holds when it is left out.
* `Fields` — the fields of a record in order; a record is a nested pair.
* `Codec.record` — the codec of a type whose values are such records.

## Design

While an object is read its fields come in any order, so what has been read is a draft: for each
field a value or none. At the end of the object the draft is finished, the first field that lacks
a value being the one reported.
-/

set_option autoImplicit false

namespace CopyTrial

open Json

/-- A field of a record. -/
structure Field (α : Type) where
  name : String
  codec : Codec α
  /-- The value of the field when an object has no such member. -/
  absent : Option α := none
  /-- The value of the field when an array ends before it. -/
  beyond : Option α := none
  /-- The member is left out when the field has this value. -/
  omits : α → Bool := fun _ => false

namespace Field

variable {α : Type}

/-- A field that must be there. -/
def required (name : String) (codec : Codec α) : Field α where
  name := name
  codec := codec

/-- A field with a value for the case that it is left out. -/
def defaulting (name : String) (codec : Codec α) (value : α) : Field α where
  name := name
  codec := codec
  absent := some value
  beyond := some value

/-- A field that may have no value, which is written as `null`. -/
def nullable (name : String) (codec : Codec α) : Field (Option α) where
  name := name
  codec := codec.optional
  absent := some none

/-- A field that may have no value, and is then not written. -/
def optional (name : String) (codec : Codec α) : Field (Option α) where
  name := name
  codec := codec.optional
  absent := some none
  omits := Option.isNone

end Field

/-- The fields of a record. The first index is the record, the nested pair of the fields' values;
the second is its draft, in which each value may still be missing. -/
inductive Fields : Type → Type → Type 1 where
  | nil : Fields Unit Unit
  | cons {α ρ δ : Type} (field : Field α) (rest : Fields ρ δ) : Fields (α × ρ) (Option α × δ)

namespace Fields

/-- The draft in which nothing has been read. -/
def blank : {ρ δ : Type} → Fields ρ δ → δ
  | _, _, .nil => ()
  | _, _, .cons _ rest => (none, rest.blank)

/-- The number of fields. -/
def count : {ρ δ : Type} → Fields ρ δ → Nat
  | _, _, .nil => 0
  | _, _, .cons _ rest => rest.count + 1

/-- The members of a record in the order of the fields. -/
def write : {ρ δ : Type} → Fields ρ δ → ρ → List (String × Json)
  | _, _, .nil, _ => []
  | _, _, .cons field rest, (a, b) =>
    if field.omits a then rest.write b else (field.name, field.codec.write a) :: rest.write b

/-- How a member of the given name is read into the draft; nothing if no field has the name. -/
def slot : {ρ δ : Type} → Fields ρ δ → δ → String → Option (Nat → Reader δ)
  | _, _, .nil, _, _ => none
  | _, _, .cons field rest, (a, draft), name =>
    if name = field.name then
      match a with
      | some _ => some fun _ => failFloating (.repeatedField name)
      | none => some fun depth => do
        colon
        let a ← field.codec.read depth
        pure (some a, draft)
    else (rest.slot draft name).map fun reader depth => do
      let draft ← reader depth
      pure (a, draft)

/-- Reads a member into the draft; one that belongs to no field is passed over. -/
def readMember {ρ δ : Type} (fields : Fields ρ δ) (depth : Nat) (draft : δ) (name : String) :
    Reader δ :=
  match fields.slot draft name with
  | some reader => reader depth
  | none => do
    colon
    skipValue
    pure draft

/-- The record of a draft, in which each field has a value of its own or the one for an absent
member. -/
def finish : {ρ δ : Type} → Fields ρ δ → δ → Except Cause ρ
  | _, _, .nil, _ => .ok ()
  | _, _, .cons field rest, (a, draft) =>
    match a.or field.absent with
    | none => .error (.missingField field.name)
    | some a => do
      let b ← rest.finish draft
      pure (a, b)

/-- Reads the fields in order as elements of a list, of which `position` have been read. -/
def readElements (wanted : String) (depth : Nat) :
    {ρ δ : Type} → Fields ρ δ → Nat → Reader ρ
  | _, _, .nil, _ => pure ()
  | _, _, .cons field rest, position => do
    let a ←
      if ← nextElement (position == 0) then field.codec.read depth
      else match field.beyond with
        | some a => pure a
        | none => failFloating (.wrongLength position wanted)
    let b ← rest.readElements wanted depth (position + 1)
    pure (a, b)

/-- Takes a member of a document into the draft. -/
def decodeMember : {ρ δ : Type} → Fields ρ δ → δ → String → Json → Except Cause δ
  | _, _, .nil, _, _, _ => .ok ()
  | _, _, .cons field rest, (a, draft), name, j =>
    if name = field.name then
      match a with
      | some _ => .error (.repeatedField name)
      | none => do
        let a ← field.codec.decode j
        pure (some a, draft)
    else do
      let draft ← rest.decodeMember draft name j
      pure (a, draft)

/-- Takes the elements of a document as fields in order, of which `position` have been taken;
gives the elements left. -/
def decodeElements (wanted : String) :
    {ρ δ : Type} → Fields ρ δ → Nat → List Json → Except Cause (ρ × List Json)
  | _, _, .nil, _, js => .ok ((), js)
  | _, _, .cons field rest, position, [] => do
    let a ← match field.beyond with
      | some a => .ok a
      | none => .error (.wrongLength position wanted)
    let (b, left) ← rest.decodeElements wanted (position + 1) []
    pure ((a, b), left)
  | _, _, .cons field rest, position, j :: js => do
    let a ← field.codec.decode j
    let (b, left) ← rest.decodeElements wanted (position + 1) js
    pure ((a, b), left)

end Fields

/-- A type whose values are records. -/
structure RecordType (α : Type) where
  /-- What a value of the type is called in messages. -/
  wanted : String
  {row draft : Type}
  fields : Fields row draft
  ofRow : row → α
  toRow : α → row

namespace RecordType

variable {α : Type}

/-- What is wanted of an array in place of the record. -/
def wantedElements (type : RecordType α) : String :=
  type.wanted ++ " with " ++ Nat.repr type.fields.count ++ " elements"

/-- Reads a record from a text. -/
def read (type : RecordType α) (depth : Nat) : Reader α :=
  dispatch (fun j => failHere (.wrongType j.found type.wanted))
    (nested listEnd (fun inner =>
      type.ofRow <$> type.fields.readElements type.wantedElements inner 0) depth)
    (nested objectEnd (fun inner => do
      let draft ← members (type.fields.readMember inner) type.fields.blank
      match type.fields.finish draft with
      | .ok row => pure (type.ofRow row)
      | .error cause => failFloating cause) depth)

/-- Reads a record from a document. -/
def decode (type : RecordType α) : Json → Except Cause α
  | .array js => do
    let (row, left) ← type.fields.decodeElements type.wantedElements 0 js
    if left.isEmpty then pure (type.ofRow row)
    else .error (.wrongLength js.length "fewer elements in array")
  | .object ms => do
    let draft ← ms.foldlM (fun draft m => type.fields.decodeMember draft m.1 m.2)
      type.fields.blank
    let row ← type.fields.finish draft
    pure (type.ofRow row)
  | j => .error (.wrongType j.found type.wanted)

end RecordType

/-- The codec of a type whose values are records. -/
def Codec.record {α : Type} (type : RecordType α) : Codec α where
  write a := .object (type.fields.write (type.toRow a))
  read := type.read
  decode := type.decode

end CopyTrial
