import CopyTrial.Bytes
import CopyTrial.IoError
import CopyTrial.Path
import CopyTrial.Timestamp

/-!
# What programs need of the machine

A program that reads clocks, uses files or writes messages is written for any monad that can do
so. It can then be run on a machine, or evaluated on a model of one.

## Main definitions

* `Clock` — a wall clock, and a stopwatch that only differences of matter.
* `Host` — clocks, files, output, messages and the number of the process.
* `writeFile`, `readText`, `makeDirectories` — what follows from these.
-/

set_option autoImplicit false

namespace CopyTrial

/-- The clocks of a machine. -/
class Clock (m : Type → Type) where
  wallClock : m Instant
  /-- Nanoseconds since some moment. -/
  stopwatch : m Int

/-- The nanoseconds between two readings of a stopwatch, as a 64-bit word: none if the second
reading is the smaller one, all ones if there are too many. -/
def elapsed (started ended : Int) : UInt64 :=
  UInt64.ofNat (min (ended - started).toNat (UInt64.size - 1))

/-- The present moment as a timestamp. -/
def presentTime {m : Type → Type} [Monad m] [Clock m] : m String := do
  let now ← Clock.wallClock
  pure now.timestamp

/-- What a machine offers. -/
class Host (m : Type → Type) extends Clock m where
  readFile : String → ExceptT IoError m Bytes
  isFile : String → m Bool
  isDirectory : String → m Bool
  /-- The names of the entries of a directory, in any order. -/
  listDirectory : String → ExceptT IoError m (List String)
  makeDirectory : String → ExceptT IoError m Unit
  /-- Makes an empty file, or empties the file that is there. -/
  createFile : String → ExceptT IoError m Unit
  appendFile : String → Bytes → ExceptT IoError m Unit
  /-- Writes to the output. -/
  print : Bytes → ExceptT IoError m Unit
  /-- Writes a message beside the output. -/
  warn : String → m Unit
  processId : m Nat

section

variable {m : Type → Type} [Monad m] [Host m]

/-- Writes a file, which then holds nothing else. -/
def writeFile (path : String) (content : Bytes) : ExceptT IoError m Unit := do
  Host.createFile path
  Host.appendFile path content

/-- The text that a file holds. -/
def readText (path : String) : ExceptT IoError m String := do
  match Bytes.toText? (← Host.readFile path) with
  | some text => pure text
  | none => throw .notText

/-- Makes a directory unless it is there already, which is no error. -/
def ensureDirectory (path : String) : ExceptT IoError m Unit :=
  tryCatch (Host.makeDirectory path) fun e => do
    if ← (Host.isDirectory path : m Bool) then pure () else throw e

/-- Makes a directory and those above it, by at most `fuel` steps upwards. -/
def makeDirectoriesWithin : Nat → String → ExceptT IoError m Unit
  | 0, path => ensureDirectory path
  | fuel + 1, path =>
    tryCatch (Host.makeDirectory path) fun e => do
      if e = .notFound then
        match Path.parent? path with
        | some parent => makeDirectoriesWithin fuel parent
        | none => pure ()
        ensureDirectory path
      else if ← (Host.isDirectory path : m Bool) then pure ()
      else throw e

/-- Makes a directory and those above it, unless they are there already. A path is longer than
that of the directory above, so its length bounds the steps. -/
def makeDirectories (path : String) : ExceptT IoError m Unit :=
  makeDirectoriesWithin path.length path

/-- Makes the directories above a file. -/
def makeParents (path : String) : ExceptT IoError m Unit :=
  match Path.parent? path with
  | some parent => makeDirectories parent
  | none => pure ()

end

end CopyTrial
