import CopyTrial.Json.Value

/-!
# Passing over values

A value that nobody wants is only checked for its brackets and tokens: numbers may have any size,
escapes may be lone surrogates, and containers may be nested to any depth.

## Main definitions

* `Json.skipValue` — passes one value.

## Design

The containers that are open are kept in a stack, so depth needs no bound. One round passes the
start of a value and everything that ends with it, and tells which containers are still open; it
takes a character at least, so the length of the text bounds the number of rounds.
-/

set_option autoImplicit false

namespace CopyTrial.Json

/-- A text after its opening quote, of which only the shape of escapes counts. -/
def skipChars : Nat → Reader Unit
  | 0 => failHere .endInText
  | fuel + 1 => do
    match ← peek with
    | none => failHere .endInText
    | some c =>
      if c = '"' then advance
      else if c = '\\' then
        advance
        match ← peek with
        | none => failHere .endInText
        | some d =>
          if d = 'u' then
            advance
            let _ ← hexQuad
            skipChars fuel
          else if (letterEscape? d).isSome then
            advance
            skipChars fuel
          else failAhead .badEscape
      else if c.toNat < 0x20 then failHere .controlCharacter
      else
        advance
        skipChars fuel

/-- Passes a text after its opening quote. -/
def skipText : Reader Unit := fun c => skipChars (c.rest.length + 1) c

/-- Passes an exponent, if there is one. -/
def skipExponent : Reader Unit := do
  let mark ← peek
  if mark = some 'e' || mark = some 'E' then
    advance
    let sign ← peek
    if sign = some '+' || sign = some '-' then advance
    let ds ← digits
    if ds.isEmpty then failAhead .badNumber

/-- Passes a fraction and an exponent, as far as they are there. -/
def skipFraction : Reader Unit := do
  if (← peek) = some '.' then
    advance
    let ds ← digits
    if ds.isEmpty then failAhead .badNumber
  skipExponent

/-- Passes a number after its sign. -/
def skipNumber : Reader Unit := do
  match ← peek with
  | none => failAhead .badNumber
  | some c =>
    if c = '0' then
      advance
      match ← peek with
      | some d => if d.isDigit then failAhead .badNumber else skipFraction
      | none => skipFraction
    else if c.isDigit then
      let _ ← digits
      skipFraction
    else failAhead .badNumber

/-- A kind of container. -/
inductive Bracket where
  | square
  | curly

/-- The character that ends the container. -/
def Bracket.close : Bracket → Char
  | .square => ']'
  | .curly => '}'

/-- The text ends inside the container. -/
def Bracket.unended : Bracket → Cause
  | .square => .endInList
  | .curly => .endInObject

/-- Something else stands where a comma or the end should be. -/
def Bracket.unseparated : Bracket → Cause
  | .square => .wantsListSeparator
  | .curly => .wantsObjectSeparator

/-- In an object, passes a name and its colon. -/
def skipName : Bracket → Reader Unit
  | .square => pure ()
  | .curly => do
    blanks
    match ← peek with
    | none => failAhead .endInObject
    | some c =>
      if c = '"' then
        advance
        skipText
        colon
      else failAhead .nameNotText

/-- After a value: passes a comma, or the ends of containers that end here. Gives the containers
in which another value follows. -/
def skipEnds : List Bracket → Reader (List Bracket)
  | [] => pure []
  | b :: outer => do
    blanks
    match ← peek with
    | none => failAhead b.unended
    | some c =>
      if c = ',' then
        advance
        skipName b
        pure (b :: outer)
      else if c = b.close then
        advance
        skipEnds outer
      else failAhead b.unseparated

/-- The start of a container that has just been opened, up to its first value. -/
def skipOpening (b : Bracket) (outer : List Bracket) : Reader (List Bracket) := do
  advance
  blanks
  match ← peek with
  | none => failAhead b.unended
  | some c =>
    if c = b.close then
      advance
      skipEnds outer
    else
      skipName b
      pure (b :: outer)

/-- One round: the start of a value inside open containers, and all that ends with it. -/
def skipRound (outer : List Bracket) : Reader (List Bracket) := do
  blanks
  match ← peek with
  | none => failAhead .endInValue
  | some c =>
    if c = '[' then skipOpening .square outer
    else if c = '{' then skipOpening .curly outer
    else
      if c = 'n' then do advance; word ['u', 'l', 'l']
      else if c = 't' then do advance; word ['r', 'u', 'e']
      else if c = 'f' then do advance; word ['a', 'l', 's', 'e']
      else if c = '"' then do advance; skipText
      else if c = '-' then do advance; skipNumber
      else if c.isDigit then skipNumber
      else failAhead .wantsValue
      skipEnds outer

/-- Rounds until no container is open, at most `fuel`. -/
def skipRounds : Nat → List Bracket → Reader Unit
  | 0, _ => failHere .endInValue
  | fuel + 1, outer => do
    match ← skipRound outer with
    | [] => pure ()
    | inside => skipRounds fuel inside

/-- Passes one value. -/
def skipValue : Reader Unit := fun c => skipRounds (c.rest.length + 1) [] c

end CopyTrial.Json
