/-!
# Paths

A path is text in which slashes separate names. Repeated slashes, and a dot between slashes, mean
nothing.

## Main definitions

* `Path.split`, `Path.names` — the parts between slashes, and those that mean something.
* `Path.parent?`, `Path.final?` — the path of the directory that holds the last name, and that
  name.
* `Path.extension?`, `Path.withExtension` — what follows the last dot of the last name.
-/

set_option autoImplicit false

namespace CopyTrial.Path

/-- The parts between separators; `part` holds, in reverse, what has been passed of the present
one. -/
def splitFrom (separator : Char) (part : List Char) : List Char → List (List Char)
  | [] => [part.reverse]
  | c :: rest =>
    if c = separator then part.reverse :: splitFrom separator [] rest
    else splitFrom separator (c :: part) rest

/-- The parts of a path between slashes. -/
def split (path : String) : List String :=
  (splitFrom '/' [] path.toList).map String.ofList

/-- The parts of a path that mean something; a dot does so only in front. -/
def names (path : String) : List String :=
  match split path with
  | [] => []
  | first :: rest =>
    (if first = "" then [] else [first]) ++ rest.filter fun part => part ≠ "" ∧ part ≠ "."

/-- Whether a path starts at the root. -/
def isAbsolute (path : String) : Bool := path.toList.head? = some '/'

/-- The path of the directory that holds the last name, unless that is the working directory. -/
def parent? (path : String) : Option String :=
  match (names path).dropLast with
  | [] => if isAbsolute path && !(names path).isEmpty then some "/" else none
  | parts =>
    some (if isAbsolute path then "/" ++ "/".intercalate parts else "/".intercalate parts)

/-- The last name of a path, with the parts before it; nothing if there are only slashes. -/
def final? (path : String) : Option (List String × String) :=
  match (split path).reverse.dropWhile (· = "") with
  | [] => none
  | last :: before => some (before.reverse, last)

/-- Whether a path ends in a slash, and so can only stand for a directory. -/
def endsInSlash (path : String) : Bool := path.toList.getLast? = some '/'

/-- The path of an entry of a directory. -/
def join (directory entry : String) : String :=
  if endsInSlash directory then directory ++ entry else directory ++ "/" ++ entry

/-- A name before and after its last dot. A name without a dot, and one whose only dot is in
front, has nothing after it. -/
def splitName (name : List Char) : List Char × Option (List Char) :=
  let after := (name.reverse.takeWhile (· != '.')).reverse
  let before := name.take (name.length - after.length - 1)
  if after.length = name.length || before.isEmpty then (name, none) else (before, some after)

/-- The extension of a name. -/
def extension? (name : String) : Option String :=
  (splitName name.toList).2.map String.ofList

/-- The characters of a path, in reverse, without the slashes and dots at its end that mean
nothing. -/
def trimReverse : List Char → List Char
  | '/' :: rest => trimReverse rest
  | '.' :: '/' :: rest => trimReverse ('/' :: rest)
  | cs => cs

/-- The path whose last name ends in an extension after its stem, in place of all that follows the
stem. A path without a last name stays. -/
def putExtension (path extension : List Char) : List Char :=
  let trimmed := trimReverse path.reverse
  let name := (trimmed.takeWhile (· != '/')).reverse
  let directory := (trimmed.dropWhile (· != '/')).reverse
  if name.isEmpty || name = ['.'] || name = ['.', '.'] then path
  else directory ++ (splitName name).1 ++ '.' :: extension

/-- The path with another extension. The old one is first taken off the end; where that leaves two
dots, which are no name, nothing is put in its place. -/
def withExtension (path extension : String) : String :=
  let old := ((names path).getLast?.bind extension?).getD ""
  String.ofList (putExtension (path.toList.take (path.length - old.length)) extension.toList)

example : withExtension "d/a.b.md" "json" = "d/a.b.json" := by decide +kernel

example : withExtension "d/..md" "json" = "d/.." := by decide +kernel

end CopyTrial.Path
