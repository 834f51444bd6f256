import CopyTrial.Failure
import CopyTrial.Fixture
import CopyTrial.Host

/-!
# Loading fixtures

A path leads to one fixture, or to a directory in which every entry with the extension `json` is
one.

## Main definitions

* `Fixture.candidates` — the entries of a directory that are fixtures, in ascending order.
* `Fixture.loadFile`, `Fixture.load` — the fixture in a file, and those that a path leads to.
-/

set_option autoImplicit false

namespace CopyTrial.Fixture

/-- The names with the extension `json`, in ascending order. -/
def candidates (names : List String) : List String :=
  (names.filter fun name => Path.extension? name = some "json").mergeSort (· ≤ ·)

section

variable {m : Type → Type} [Monad m] [Host m]

/-- The fixture in a file. -/
def loadFile (path : String) : ExceptT Failure m Fixture := do
  let text ← (readText path : ExceptT IoError m String).adapt Failure.io
  match codec.parse text with
  | .ok fixture => pure fixture
  | .error e => throw (.json e)

/-- The fixtures in files, in order; the first one that cannot be read ends it. -/
def loadFiles : List String → ExceptT Failure m (List Fixture)
  | [] => pure []
  | path :: rest => do
    let fixture ← loadFile path
    let fixtures ← loadFiles rest
    pure (fixture :: fixtures)

/-- The fixtures that a path leads to. -/
def load (path : String) : ExceptT Failure m (List Fixture) := do
  if ← (Host.isFile path : m Bool) then
    let fixture ← loadFile path
    pure [fixture]
  else
    let names ← (Host.listDirectory path : ExceptT IoError m (List String)).adapt Failure.io
    match candidates names with
    | [] => throw (.noFixtures path)
    | files => loadFiles (files.map (Path.join path))

end

end CopyTrial.Fixture
