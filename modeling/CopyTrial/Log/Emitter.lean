import CopyTrial.Log.Entry

/-!
# Emitters

An emitter numbers entries and writes them to a log, one a line. The log is kept in memory, or
written to a file behind a buffer, so that it reaches the file in larger pieces.

## Main definitions

* `LogSink`, `Emitter` — where lines go, and the state of an emitter.
* `Emitter.ofMemory`, `Emitter.toFile` — new emitters.
* `Emitter.nextTraceId` — the number of the next entry, as a trace id.
* `Emitter.emit`, `Emitter.emitEntry`, `Emitter.flush`, `Emitter.close` — writing.

## Main results

* `passOn_append` — what leaves the buffer and what stays in it is what was there and what came.
-/

set_option autoImplicit false

namespace CopyTrial

/-- Where the lines of a log go. -/
inductive LogSink where
  | memory (text : String)
  /-- A file, with the bytes that are held back before it. -/
  | file (path : String) (held : Bytes)
  deriving DecidableEq, Repr

/-- The state of an emitter. -/
structure Emitter where
  suite : String
  runId : String
  /-- How many trace ids have been given out. -/
  sequence : Nat := 0
  sink : LogSink
  deriving DecidableEq, Repr

/-- How many bytes are held back at most. -/
def bufferSize : Nat := 8192

/-- What leaves the buffer when a piece comes, and what it holds then. A piece that does not fit
drives out what is held; one that is as large as the buffer is not held at all. -/
def passOn (held piece : Bytes) : Bytes × Bytes :=
  let full := bufferSize < held.length + piece.length
  let out := if full then held else []
  let kept := if full then [] else held
  if bufferSize ≤ piece.length then (out ++ piece, kept) else (out, kept ++ piece)

/-- Nothing is lost or reordered in the buffer. -/
theorem passOn_append (held piece : Bytes) :
    (passOn held piece).1 ++ (passOn held piece).2 = held ++ piece := by
  by_cases full : bufferSize < held.length + piece.length
  · by_cases large : bufferSize ≤ piece.length <;> simp [passOn, full, large]
  · by_cases large : bufferSize ≤ piece.length
    · have h : held = [] := by
        apply List.eq_nil_of_length_eq_zero
        omega
      simp [passOn, large, h]
    · simp [passOn, full, large]

/-- The buffer never holds more than its size. -/
theorem length_passOn_le {held : Bytes} (h : held.length ≤ bufferSize) (piece : Bytes) :
    (passOn held piece).2.length ≤ bufferSize := by
  by_cases full : bufferSize < held.length + piece.length
  · by_cases large : bufferSize ≤ piece.length
    · simp [passOn, full, large]
    · simp only [passOn, full, large, if_true, if_false, List.nil_append]
      omega
  · by_cases large : bufferSize ≤ piece.length
    · simpa [passOn, full, large] using h
    · simp only [passOn, full, large, if_false, List.length_append]
      omega

namespace Emitter

/-- A new emitter that keeps its log in memory. -/
def ofMemory (suite runId : String) : Emitter := { suite, runId, sink := .memory "" }

/-- The log of an emitter that keeps it in memory. -/
def buffered (e : Emitter) : Option String :=
  match e.sink with
  | .memory text => some text
  | .file .. => none

/-- The trace id with a number. -/
def traceId (suite runId : String) (number : Nat) : String :=
  suite ++ "::" ++ runId ++ "::" ++ Numeral.padded 3 number

/-- The next trace id, and the emitter that has given it out. -/
def nextTraceId (e : Emitter) : String × Emitter :=
  (traceId e.suite e.runId (e.sequence + 1), { e with sequence := e.sequence + 1 })

/-- Completes an entry: an empty trace id becomes the next one, and a missing suite becomes that
of the emitter. -/
def complete (e : Emitter) (entry : Entry) : Entry × Emitter :=
  let (id, e) := if entry.traceId = "" then e.nextTraceId else (entry.traceId, e)
  ({ entry with traceId := id, suite := entry.suite.or (some e.suite) }, e)

section

variable {m : Type → Type} [Monad m] [Host m]

/-- A new emitter that writes its log to a file. The directories above are made, and a file that
is there is emptied. -/
def toFile (path suite runId : String) : ExceptT IoError m Emitter := do
  makeParents path
  Host.createFile path
  pure { suite, runId, sink := .file path [] }

/-- Adds bytes to a file; nothing happens if there are none. -/
def deliver (path : String) (bytes : Bytes) : ExceptT IoError m Unit :=
  if bytes.isEmpty then pure () else Host.appendFile path bytes

/-- Writes a piece of text to the log. -/
def write (e : Emitter) (piece : String) : ExceptT IoError m Emitter :=
  match e.sink with
  | .memory text => pure { e with sink := .memory (text ++ piece) }
  | .file path held => do
    let (out, held) := passOn held (Bytes.ofText piece)
    deliver path out
    pure { e with sink := .file path held }

/-- Writes the line of an entry, and then its end. -/
def writeLine (e : Emitter) (entry : Entry) : ExceptT IoError m Emitter := do
  let e ← e.write entry.line
  e.write "\n"

/-- Writes an entry that has only a level and an event, and gives it back. -/
def emit (e : Emitter) (level : Level) (event : String) : ExceptT IoError m (Entry × Emitter) := do
  let (id, e) := e.nextTraceId
  let entry ← (Entry.now id level event : m Entry)
  let entry := { entry with suite := some e.suite }
  let e ← e.writeLine entry
  pure (entry, e)

/-- Completes an entry and writes it. -/
def emitEntry (e : Emitter) (entry : Entry) : ExceptT IoError m Emitter :=
  let (entry, e) := e.complete entry
  e.writeLine entry

/-- Writes what has been held back. -/
def flush (e : Emitter) : ExceptT IoError m Emitter :=
  match e.sink with
  | .memory _ => pure e
  | .file path held => do
    deliver path held
    pure { e with sink := .file path [] }

/-- Closes an emitter that is no longer used. What has been held back is written, and it is not told
if that fails. -/
def close (e : Emitter) : m Unit := do
  let _ ← (e.flush : ExceptT IoError m Emitter).run
  pure ()

end

end Emitter

end CopyTrial
