/-!
# Lines and pieces

## Main definitions

* `Text.lines` — the lines of a text, without what ends them.
* `Text.splitPairs` — the pieces of a text between pairs of colons.
-/

set_option autoImplicit false

namespace CopyTrial.Text

/-- The characters without a carriage return at their end. -/
def dropReturn : List Char → List Char
  | [] => []
  | ['\r'] => []
  | c :: rest => c :: dropReturn rest

/-- The lines of characters; `line` holds, in reverse, what has been passed of the present one. A
line feed ends a line, with the carriage return before it if there is one; a last line without
line feed counts unless it is empty. -/
def linesFrom (line : List Char) : List Char → List (List Char)
  | [] => if line.isEmpty then [] else [line.reverse]
  | c :: rest =>
    if c = '\n' then dropReturn line.reverse :: linesFrom [] rest
    else linesFrom (c :: line) rest

/-- The lines of a text. -/
def lines (s : String) : List String := (linesFrom [] s.toList).map String.ofList

/-- The pieces of characters between pairs of colons, which are found from left to right and do
not overlap; `piece` holds, in reverse, what has been passed of the present one. -/
def splitPairsFrom (piece : List Char) : List Char → List (List Char)
  | [] => [piece.reverse]
  | ':' :: ':' :: rest => piece.reverse :: splitPairsFrom [] rest
  | c :: rest => splitPairsFrom (c :: piece) rest

/-- The pieces of a text between pairs of colons. -/
def splitPairs (s : String) : List String := (splitPairsFrom [] s.toList).map String.ofList

end CopyTrial.Text
