import CopyTrial.Json.Scalar
import CopyTrial.Json.Canonical

/-!
# Reading whole documents

## Main definitions

* `Json.dispatch` — goes by the first character: a scalar, an array or an object.
* `Json.elements`, `Json.members` — the content of an array or an object.
* `Json.value` — any document with a bound on the nesting of containers.
* `Json.whole`, `Json.parse` — a text that holds one document and nothing else.
-/

set_option autoImplicit false

namespace CopyTrial.Json

/-- The greatest number of containers nested in each other. -/
def greatestDepth : Nat := 127

/-- A document that is neither array nor object, by its first character. -/
def scalar (first : Char) : Reader Json :=
  if first = 'n' then do advance; word ['u', 'l', 'l']; pure .null
  else if first = 't' then do advance; word ['r', 'u', 'e']; pure (.boolean true)
  else if first = 'f' then do advance; word ['a', 'l', 's', 'e']; pure (.boolean false)
  else if first = '"' then do advance; let s ← textTail; pure (.text s)
  else if first = '-' || first.isDigit then number
  else failAhead .wantsValue

/-- Reads on by what comes next; an opening bracket is left to the reader of the container. -/
def dispatch {α : Type} (onScalar : Json → Reader α) (onArray onObject : Reader α) :
    Reader α := do
  blanks
  match ← peek with
  | none => failHere .endInValue
  | some c =>
    if c = '[' then onArray
    else if c = '{' then onObject
    else do
      let j ← scalar c
      onScalar j

/-- The content and the end of a container, after its opening bracket; there must be depth left
for it. -/
def nested {α : Type} (ending : Ending) (content : Nat → Reader α) : Nat → Reader α
  | 0 => failAhead .tooDeep
  | depth + 1 => do
    advance
    closing ending (content depth)

/-- Passes the comma before an element, unless it is the first; false at the end of the list. -/
def nextElement (isFirst : Bool) : Reader Bool := do
  blanks
  match ← peek with
  | none => failAhead .endInList
  | some c =>
    if c = ']' then pure false
    else if isFirst then pure true
    else if c = ',' then
      advance
      blanks
      match ← peek with
      | none => failAhead .endInValue
      | some d => if d = ']' then failAhead .trailingComma else pure true
    else failAhead .wantsListSeparator

/-- Passes the comma before a member, unless it is the first; false at the end of the object. A
member starts with a quote. -/
def nextMember (isFirst : Bool) : Reader Bool := do
  blanks
  match ← peek with
  | none => failAhead .endInObject
  | some c =>
    if c = '}' then pure false
    else if isFirst then
      if c = '"' then pure true else failAhead .nameNotText
    else if c = ',' then
      advance
      blanks
      match ← peek with
      | none => failAhead .endInValue
      | some d =>
        if d = '"' then pure true
        else if d = '}' then failAhead .trailingComma
        else failAhead .nameNotText
    else failAhead .wantsObjectSeparator

/-- Passes the colon after a name. -/
def colon : Reader Unit := do
  blanks
  match ← peek with
  | none => failAhead .endInObject
  | some c => if c = ':' then advance else failAhead .wantsColon

/-- The name of a member, at its opening quote. -/
def memberName : Reader String := do
  advance
  textTail

/-- The elements of a list, by at most `fuel` steps. -/
def elementsWithin {α : Type} (element : Reader α) : Nat → Bool → Reader (List α)
  | 0, _ => failHere .endInList
  | fuel + 1, isFirst => do
    if ← nextElement isFirst then
      let a ← element
      let rest ← elementsWithin element fuel false
      pure (a :: rest)
    else pure []

/-- The elements of a list; each takes a character at least, so the length suffices. -/
def elements {α : Type} (element : Reader α) : Reader (List α) := fun c =>
  elementsWithin element (c.rest.length + 1) true c

/-- Folds the members of an object into a state, by at most `fuel` steps. A step gets the name of
a member, with the cursor after it and before the colon. -/
def membersWithin {σ : Type} (member : σ → String → Reader σ) : Nat → Bool → σ → Reader σ
  | 0, _, _ => failHere .endInObject
  | fuel + 1, isFirst, state => do
    if ← nextMember isFirst then
      let name ← memberName
      let state ← member state name
      membersWithin member fuel false state
    else pure state

/-- Folds the members of an object into a state; each takes a character at least, so the length
suffices. -/
def members {σ : Type} (member : σ → String → Reader σ) (state : σ) : Reader σ := fun c =>
  membersWithin member (c.rest.length + 1) true state c

/-- Any document with at most so many containers nested in each other. Members keep their
order. -/
def value (depth : Nat) : Reader Json :=
  match depth with
  | 0 => dispatch pure (failAhead .tooDeep) (failAhead .tooDeep)
  | inner + 1 =>
    dispatch pure
      (do
        advance
        let js ← closing listEnd (elements (value inner))
        pure (.array js))
      (do
        advance
        let ms ← closing objectEnd (members (fun done name => do
          colon
          let j ← value inner
          pure ((name, j) :: done)) [])
        pure (.object ms.reverse))

/-- Reads a whole text: what follows the document can only be blanks. -/
def whole {α : Type} (reader : Reader α) (text : String) : Except Error α :=
  match reader (Cursor.start text) with
  | .error failure => .error failure.error
  | .ok (a, c) =>
    let c := c.afterBlanks
    if c.rest.isEmpty then .ok a else .error ⟨.trailingCharacters, some c.ahead⟩

/-- The document that a text holds. -/
def parse (text : String) : Except Error Json := whole (value greatestDepth) text

end CopyTrial.Json
