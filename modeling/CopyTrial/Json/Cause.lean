import CopyTrial.Json.Printer
import CopyTrial.Text.Quoted

/-!
# What can be wrong with a document

A text may break the grammar of JSON, and a document may say something else than the value that is
wanted. Either is a cause; an error is a cause with the place where it was noticed, if there is
one.

## Main definitions

* `Json.Found` — what stands where something else is wanted.
* `Json.Cause`, `Json.Cause.message` — what is wrong, and its wording.
* `Json.Position`, `Json.Error` — a place in a text, and a cause with its place.
-/

set_option autoImplicit false

namespace CopyTrial.Json

/-- What stands where something else is wanted. -/
inductive Found where
  | null
  | boolean (b : Bool)
  | integer (i : Int)
  | double (x : Float)
  | text (s : String)
  | sequence
  | map
  | unitVariant

/-- What a document is, for a message. -/
def found : Json → Found
  | .null => .null
  | .boolean b => .boolean b
  | .integer i => .integer i
  | .double x => .double x
  | .text s => .text s
  | .array _ => .sequence
  | .object _ => .map

/-- A literal between backquotes. -/
def backquoted (literal : List Char) : String :=
  "`" ++ String.ofList literal ++ "`"

/-- The wording of what was found. -/
def Found.wording : Found → String
  | .null => "null"
  | .boolean b => "boolean " ++ backquoted (booleanText b)
  | .integer i => "integer " ++ backquoted (integerText i)
  | .double x => "floating point " ++ backquoted (decimalText x)
  | .text s => "string " ++ Text.quoted s
  | .sequence => "sequence"
  | .map => "map"
  | .unitVariant => "unit variant"

/-- The wording of the names that are allowed. -/
def choiceWording : List String → String
  | [] => "there are no variants"
  | [a] => "expected " ++ backquoted a.toList
  | [a, b] => "expected " ++ backquoted a.toList ++ " or " ++ backquoted b.toList
  | names => "expected one of " ++ ", ".intercalate (names.map fun a => backquoted a.toList)

/-- What is wrong with a text or with the document in it. -/
inductive Cause where
  | endInValue
  | endInText
  | endInList
  | endInObject
  | wantsIdent
  | wantsValue
  | wantsColon
  | wantsListSeparator
  | wantsObjectSeparator
  | nameNotText
  | trailingComma
  | trailingCharacters
  | badNumber
  | numberOutOfRange
  | badEscape
  | loneSurrogate
  | cutSurrogate
  | controlCharacter
  | tooDeep
  | wrongType (found : Found) (wanted : String)
  | wrongValue (found : Found) (wanted : String)
  | wrongLength (length : Nat) (wanted : String)
  | unknownVariant (name : String) (choices : List String)
  | missingField (name : String)
  | repeatedField (name : String)

/-- The wording of a cause. -/
def Cause.message : Cause → String
  | .endInValue => "EOF while parsing a value"
  | .endInText => "EOF while parsing a string"
  | .endInList => "EOF while parsing a list"
  | .endInObject => "EOF while parsing an object"
  | .wantsIdent => "expected ident"
  | .wantsValue => "expected value"
  | .wantsColon => "expected `:`"
  | .wantsListSeparator => "expected `,` or `]`"
  | .wantsObjectSeparator => "expected `,` or `\x7d`"
  | .nameNotText => "key must be a string"
  | .trailingComma => "trailing comma"
  | .trailingCharacters => "trailing characters"
  | .badNumber => "invalid number"
  | .numberOutOfRange => "number out of range"
  | .badEscape => "invalid escape"
  | .loneSurrogate => "lone leading surrogate in hex escape"
  | .cutSurrogate => "unexpected end of hex escape"
  | .controlCharacter => "control character (\\u0000-\\u001F) found while parsing a string"
  | .tooDeep => "recursion limit exceeded"
  | .wrongType found wanted => "invalid type: " ++ found.wording ++ ", expected " ++ wanted
  | .wrongValue found wanted => "invalid value: " ++ found.wording ++ ", expected " ++ wanted
  | .wrongLength length wanted =>
    "invalid length " ++ Nat.repr length ++ ", expected " ++ wanted
  | .unknownVariant name choices =>
    "unknown variant " ++ backquoted name.toList ++ ", " ++ choiceWording choices
  | .missingField name => "missing field " ++ backquoted name.toList
  | .repeatedField name => "duplicate field " ++ backquoted name.toList

/-- A place in a text: the line, counted from one, and the number of bytes before the place on
that line. -/
structure Position where
  line : Nat
  column : Nat
  deriving DecidableEq, Inhabited

/-- A cause, with the place where it was noticed unless there is none. -/
structure Error where
  cause : Cause
  position : Option Position

/-- The wording of an error. -/
def Error.message (e : Error) : String :=
  match e.position with
  | none => e.cause.message
  | some p =>
    e.cause.message ++ " at line " ++ Nat.repr p.line ++ " column " ++ Nat.repr p.column

end CopyTrial.Json
