import CopyTrial.Bytes
import CopyTrial.IoError
import CopyTrial.Path

/-!
# File trees

A tree of directories and files. Each entry has a place, the list of names that lead to it from
the root. A path is walked part by part from the root, and each step needs a directory to start
from.

## Main definitions

* `FileTree`, `FileTree.node?` — a tree, and what stands at a place.
* `FileTree.checkPath`, `FileTree.walk`, `FileTree.locate` — the place that a path leads to.
* `FileTree.read`, `FileTree.list`, `FileTree.isFile`, `FileTree.isDirectory` — questions.
* `FileTree.create`, `FileTree.append`, `FileTree.makeDirectory` — changes.

## Main results

* `FileTree.node?_put_self`, `FileTree.node?_put_of_ne` — a change of one place is seen there and
  nowhere else.
-/

set_option autoImplicit false

namespace CopyTrial

/-- The names that lead to an entry from the root. -/
abbrev Place := List String

/-- What stands at a place. -/
inductive Node where
  | directory
  | file (content : Bytes)
  deriving DecidableEq, Repr

/-- The entries of a tree; the root is a directory and has no entry. -/
structure FileTree where
  entries : List (Place × Node) := []
  deriving DecidableEq, Repr

namespace FileTree

/-- What stands at a place. -/
def node? (tree : FileTree) : Place → Option Node
  | [] => some .directory
  | name :: rest => tree.entries.lookup (name :: rest)

/-- The entries after one has been set: a new one comes last. -/
def putEntry (place : Place) (node : Node) : List (Place × Node) → List (Place × Node)
  | [] => [(place, node)]
  | (place', node') :: rest =>
    if place' = place then (place, node) :: rest
    else (place', node') :: putEntry place node rest

/-- The tree after an entry has been set. -/
def put (tree : FileTree) (place : Place) (node : Node) : FileTree :=
  ⟨putEntry place node tree.entries⟩

/-- The entry that has been set is found. -/
theorem lookup_putEntry_self (place : Place) (node : Node) (entries : List (Place × Node)) :
    (putEntry place node entries).lookup place = some node := by
  induction entries with
  | nil => simp [putEntry]
  | cons entry rest ih =>
    obtain ⟨place', node'⟩ := entry
    by_cases h : place' = place
    · simp [putEntry, h]
    · have h' : (place == place') = false := by simpa using fun e => h e.symm
      simp [putEntry, h, List.lookup_cons, h', ih]

/-- Every other entry is found as before. -/
theorem lookup_putEntry_of_ne {place other : Place} (hne : other ≠ place) (node : Node)
    (entries : List (Place × Node)) :
    (putEntry place node entries).lookup other = entries.lookup other := by
  induction entries with
  | nil =>
    have h : (other == place) = false := by simpa using hne
    simp [putEntry, List.lookup_cons, h]
  | cons entry rest ih =>
    obtain ⟨place', node'⟩ := entry
    by_cases h : place' = place
    · have h' : (other == place) = false := by simpa using hne
      simp [putEntry, h, List.lookup_cons, h']
    · simp [putEntry, h, List.lookup_cons, ih]

/-- What has been put at a place stands there. -/
theorem node?_put_self (tree : FileTree) {place : Place} (h : place ≠ []) (node : Node) :
    (tree.put place node).node? place = some node := by
  obtain _ | ⟨name, rest⟩ := place
  · exact absurd rfl h
  · exact lookup_putEntry_self ..

/-- Everything else stands where it stood. -/
theorem node?_put_of_ne (tree : FileTree) {place other : Place} (hne : other ≠ place)
    (node : Node) : (tree.put place node).node? other = tree.node? other := by
  obtain _ | ⟨name, rest⟩ := other
  · rfl
  · exact lookup_putEntry_of_ne hne ..

/-- The names of the entries of a directory. -/
def children (tree : FileTree) (directory : Place) : List String :=
  tree.entries.filterMap fun entry =>
    if entry.1.dropLast = directory then entry.1.getLast? else none

/-- The bytes of the longest name. -/
def nameLimit : Nat := 255

/-- The bytes of the longest path. -/
def pathLimit : Nat := 4095

/-- Refuses a path that leads nowhere in any tree. -/
def checkPath (path : String) : Except IoError Unit :=
  if '\x00' ∈ path.toList then .error .zeroInName
  else if path.utf8ByteSize > pathLimit then .error .nameTooLong
  else if path = "" then .error .notFound
  else .ok ()

/-- The place of an entry of a directory, whether or not the entry is there. -/
def entryPlace (directory : Place) (name : String) : Except IoError Place :=
  if name.utf8ByteSize > nameLimit then .error .nameTooLong else .ok (directory ++ [name])

/-- Walks the parts of a path from a place. An empty part and a dot stay, two dots go up. -/
def walk (tree : FileTree) (here : Place) : List String → Except IoError Place
  | [] => .ok here
  | part :: rest =>
    match tree.node? here with
    | none => .error .notFound
    | some (.file _) => .error .notDirectory
    | some .directory =>
      if part = "" ∨ part = "." then tree.walk here rest
      else if part = ".." then tree.walk here.dropLast rest
      else do
        let next ← entryPlace here part
        tree.walk next rest

/-- What a path leads to. -/
def locate (tree : FileTree) (path : String) : Except IoError (Place × Node) := do
  checkPath path
  let place ← tree.walk [] (Path.split path)
  match tree.node? place with
  | none => .error .notFound
  | some node => .ok (place, node)

/-- Whether a path leads to a file. -/
def isFile (tree : FileTree) (path : String) : Bool :=
  match tree.locate path with
  | .ok (_, .file _) => true
  | _ => false

/-- Whether a path leads to a directory. -/
def isDirectory (tree : FileTree) (path : String) : Bool :=
  match tree.locate path with
  | .ok (_, .directory) => true
  | _ => false

/-- The content of a file. -/
def read (tree : FileTree) (path : String) : Except IoError Bytes := do
  match ← tree.locate path with
  | (_, .file content) => .ok content
  | (_, .directory) => .error .isDirectory

/-- The names of the entries of a directory. -/
def list (tree : FileTree) (path : String) : Except IoError (List String) := do
  match ← tree.locate path with
  | (_, .file _) => .error .notDirectory
  | (place, .directory) => .ok (tree.children place)

/-- The place that a path gives to a file to be written. The last name need not be there yet, but
what comes before it must lead to a directory. -/
def fileSlot (tree : FileTree) (path : String) : Except IoError Place := do
  checkPath path
  match Path.final? path with
  | none => .error .isDirectory
  | some (before, last) =>
    let directory ← tree.walk [] (before ++ ["."])
    if last = "." ∨ last = ".." ∨ Path.endsInSlash path then .error .isDirectory
    else
      let place ← entryPlace directory last
      if tree.node? place = some .directory then .error .isDirectory else .ok place

/-- Makes an empty file, or empties the file that is there. -/
def create (tree : FileTree) (path : String) : Except IoError FileTree := do
  let place ← tree.fileSlot path
  .ok (tree.put place (.file []))

/-- Adds bytes to the end of a file. -/
def append (tree : FileTree) (path : String) (bytes : Bytes) : Except IoError FileTree := do
  match ← tree.locate path with
  | (place, .file content) => .ok (tree.put place (.file (content ++ bytes)))
  | (_, .directory) => .error .isDirectory

/-- Makes a directory, of which only the last name may be new. -/
def makeDirectory (tree : FileTree) (path : String) : Except IoError FileTree := do
  checkPath path
  match Path.final? path with
  | none => .error .alreadyExists
  | some (before, last) =>
    let directory ← tree.walk [] (before ++ ["."])
    if last = "." ∨ last = ".." then .error .alreadyExists
    else
      let place ← entryPlace directory last
      match tree.node? place with
      | some _ => .error .alreadyExists
      | none => .ok (tree.put place .directory)

end FileTree

end CopyTrial
