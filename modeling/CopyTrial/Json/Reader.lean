import CopyTrial.Json.Cause

/-!
# Reading text from left to right

A cursor is what is left of a text and the place where it starts. A reader takes a cursor and
gives a value with the cursor after it, or a failure.

## Main definitions

* `Json.Cursor`, `Json.Reader` — the state of reading, and a step of it.
* `Json.Failure` — a located failure keeps its place; a floating one gets the place where the
  container around it ends.
* `Json.closing` — a container's content with the step that ends the container.
-/

set_option autoImplicit false

namespace CopyTrial.Json

/-- The place after a character. -/
def Position.after (p : Position) (c : Char) : Position :=
  if c = '\n' then ⟨p.line + 1, 0⟩ else ⟨p.line, p.column + c.utf8Size⟩

/-- The place after the first byte of a character. -/
def Position.afterByte (p : Position) (c : Char) : Position :=
  if c = '\n' then ⟨p.line + 1, 0⟩ else ⟨p.line, p.column + 1⟩

/-- The place after so many bytes of a text, which may lie inside a character. -/
def Position.afterBytes (p : Position) : Nat → List Char → Position
  | 0, _ => p
  | _, [] => p
  | n, c :: rest =>
    if c.utf8Size ≤ n then (p.after c).afterBytes (n - c.utf8Size) rest
    else ⟨p.line, p.column + n⟩

/-- What is left of a text, and where it starts. -/
structure Cursor where
  rest : List Char
  position : Position

namespace Cursor

/-- The cursor at the start of a text. -/
def start (text : String) : Cursor := ⟨text.toList, ⟨1, 0⟩⟩

/-- The cursor one character further; at the end it stays. -/
def next (c : Cursor) : Cursor :=
  match c.rest with
  | [] => c
  | a :: rest => ⟨rest, c.position.after a⟩

/-- The place of the byte that comes next; at the end, the end. -/
def ahead (c : Cursor) : Position :=
  match c.rest with
  | [] => c.position
  | a :: _ => c.position.afterByte a

/-- The cursor after a given number of characters. -/
def skip (c : Cursor) : Nat → Cursor
  | 0 => c
  | n + 1 => c.next.skip n

end Cursor

/-- Why reading stopped. -/
inductive Failure where
  /-- Noticed at a place. -/
  | located (cause : Cause) (position : Position)
  /-- Noticed without a place, with the cursor at that moment. -/
  | floating (cause : Cause) (cursor : Cursor)

/-- The error of a failure that no container is left to locate. -/
def Failure.error : Failure → Error
  | .located cause position => ⟨cause, some position⟩
  | .floating cause _ => ⟨cause, none⟩

/-- A step of reading. -/
abbrev Reader (α : Type) := StateT Cursor (Except Failure) α

/-- The character that comes next. -/
def peek : Reader (Option Char) := fun c => .ok (c.rest.head?, c)

/-- Passes one character. -/
def advance : Reader Unit := fun c => .ok ((), c.next)

/-- Fails at the place reached. -/
def failHere {α : Type} (cause : Cause) : Reader α := fun c => .error (.located cause c.position)

/-- Fails at the byte that comes next. -/
def failAhead {α : Type} (cause : Cause) : Reader α := fun c => .error (.located cause c.ahead)

/-- Fails without a place. -/
def failFloating {α : Type} (cause : Cause) : Reader α := fun c => .error (.floating cause c)

/-- The blanks that may stand between tokens. -/
def isBlank (c : Char) : Bool := c = ' ' || c = '\n' || c = '\t' || c = '\r'

/-- Passes characters as long as they satisfy a condition. -/
def passWhile (p : Char → Bool) : List Char → Position → Cursor
  | [], position => ⟨[], position⟩
  | c :: rest, position =>
    if p c then passWhile p rest (position.after c) else ⟨c :: rest, position⟩

/-- The cursor after the blanks. -/
def Cursor.afterBlanks (c : Cursor) : Cursor := passWhile isBlank c.rest c.position

/-- Passes blanks. -/
def blanks : Reader Unit := fun c => .ok ((), c.afterBlanks)

/-- The decimal digits that come next, possibly none. -/
def digits : Reader (List Char) := fun c =>
  .ok (c.rest.takeWhile Char.isDigit, passWhile Char.isDigit c.rest c.position)

/-- The step that ends a container: what is wrong, if anything, at the cursor that it reaches. -/
abbrev Ending := Cursor → Option Cause × Cursor

/-- The end of a list. -/
def listEnd : Ending := fun c =>
  let c := c.afterBlanks
  match c.rest with
  | [] => (some .endInList, c)
  | ']' :: _ => (none, c.next)
  | ',' :: _ =>
    let c := c.next.afterBlanks
    if c.rest.head? = some ']' then (some .trailingComma, c) else (some .trailingCharacters, c)
  | _ :: _ => (some .trailingCharacters, c)

/-- The end of an object. -/
def objectEnd : Ending := fun c =>
  let c := c.afterBlanks
  match c.rest with
  | [] => (some .endInObject, c)
  | '}' :: _ => (none, c.next)
  | ',' :: _ => (some .trailingComma, c)
  | _ :: _ => (some .trailingCharacters, c)

/-- The content of a container followed by its end. A floating failure of the content is located
where the end is found or missed. -/
def closing {α : Type} (ending : Ending) (content : Reader α) : Reader α := fun c =>
  match content c with
  | .ok (a, c) =>
    match ending c with
    | (none, c) => .ok (a, c)
    | (some cause, c) => .error (.located cause c.ahead)
  | .error (.located cause position) => .error (.located cause position)
  | .error (.floating cause c) => .error (.located cause (ending c).2.position)

end CopyTrial.Json
