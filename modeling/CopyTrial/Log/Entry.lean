import CopyTrial.Expectation
import CopyTrial.Host

/-!
# Log entries

An entry of a log says when, where and how gravely something happened, and as much else as there
is to say. It is written as one object on one line.

## Main definitions

* `Level`, `Outcome` — how grave an entry is, and how what it tells of ended.
* `Entry`, `Entry.codec` — an entry, and how it stands in a log.
* `detailsOf` — details from members.
* `Entry.now` — an entry of the present moment.
-/

set_option autoImplicit false

namespace CopyTrial

/-- Details with the given members. -/
def detailsOf (members : List (String × Json)) : FreeForm := .ofJson (.object members)

/-- How grave an entry is. -/
inductive Level where
  | debug
  | info
  | warn
  | error
  deriving DecidableEq, Repr

namespace Level

/-- The name of a level. -/
def name : Level → String
  | .debug => "debug"
  | .info => "info"
  | .warn => "warn"
  | .error => "error"

/-- Every level. -/
def all : List Level := [.debug, .info, .warn, .error]

/-- A level stands as its name. -/
def codec : Codec Level := .names name all

end Level

/-- How a trial ended: with a passing or a failing verdict, or with none. -/
inductive Outcome where
  | pass
  | fail
  | error
  deriving DecidableEq, Repr

namespace Outcome

/-- The name of an outcome. -/
def name : Outcome → String
  | .pass => "pass"
  | .fail => "fail"
  | .error => "error"

/-- Every outcome. -/
def all : List Outcome := [.pass, .fail, .error]

/-- An outcome stands as its name. -/
def codec : Codec Outcome := .names name all

/-- The outcome of a trial that came to a verdict. -/
def ofVerdict : Verdict → Outcome
  | .pass => .pass
  | .fail _ => .fail

end Outcome

/-- An entry of a log. -/
structure Entry where
  timestamp : String
  traceId : String
  level : Level
  event : String
  suite : Option String := none
  scenario : Option String := none
  primitive : Option String := none
  /-- The length of the buffers that the primitive was called with. -/
  size : Option UInt64 := none
  fill : Option UInt8 := none
  outcome : Option Outcome := none
  exitCode : Option UInt8 := none
  divergence : Option DivergenceRecord := none
  duration : Option UInt64 := none
  /-- The paths of files that belong to the entry. -/
  artifacts : Option (List String) := none
  details : Option FreeForm := none

namespace Entry

/-- The fields of an entry; all but the first four may be left out. -/
def recordType : RecordType Entry where
  wanted := "struct LogEntry"
  fields :=
    .cons (.required "timestamp" .text) <|
    .cons (.required "trace_id" .text) <|
    .cons (.required "level" Level.codec) <|
    .cons (.required "event" .text) <|
    .cons (.optional "suite" .text) <|
    .cons (.optional "scenario" .text) <|
    .cons (.optional "primitive" .text) <|
    .cons (.optional "size" .size) <|
    .cons (.optional "fill" .byte) <|
    .cons (.optional "outcome" Outcome.codec) <|
    .cons (.optional "exit_code" .byte) <|
    .cons (.optional "divergence" DivergenceRecord.codec) <|
    .cons (.optional "duration_ns" .word64) <|
    .cons (.optional "artifact_refs" (.list .text)) <|
    .cons (.optional "details" .freeForm) .nil
  ofRow := fun (timestamp, traceId, level, event, suite, scenario, primitive, size, fill, outcome,
      exitCode, divergence, duration, artifacts, details, ()) =>
    { timestamp, traceId, level, event, suite, scenario, primitive, size, fill, outcome, exitCode,
      divergence, duration, artifacts, details }
  toRow e := (e.timestamp, e.traceId, e.level, e.event, e.suite, e.scenario, e.primitive, e.size,
    e.fill, e.outcome, e.exitCode, e.divergence, e.duration, e.artifacts, e.details, ())

/-- How an entry stands in a log. -/
def codec : Codec Entry := .record recordType

/-- The line of an entry, without its end. -/
def line (e : Entry) : String := codec.compact e

/-- An entry of the present moment. -/
def now {m : Type → Type} [Monad m] [Clock m] (traceId : String) (level : Level)
    (event : String) : m Entry := do
  let timestamp ← presentTime
  pure { timestamp, traceId, level, event }

end Entry

end CopyTrial
