import CopyTrial.Failure
import CopyTrial.Fixture
import CopyTrial.Primitive.Kind

/-!
# Results

The result of a scenario says what was expected, what was observed, and whether they agree. A
tally counts the results of a campaign.

## Main definitions

* `Attempt`, `Scenario.attempt` — what the trial of a scenario comes to.
* `Result`, `Result.ofAttempt`, `Result.unresolved` — the result of a scenario.
* `Tally`, `Tally.ofResults` — results with their counts.
-/

set_option autoImplicit false

namespace CopyTrial

/-- What a trial came to, and the length of its buffers. -/
structure Attempt where
  verdict : Verdict
  size : UInt64
  deriving DecidableEq, Repr

namespace Scenario

/-- The attempt of a scenario with a primitive. -/
def attempt (s : Scenario) (kind : Kind) : Attempt where
  verdict := s.trial.verdict kind.primitive
  size := UInt64.ofNat s.trial.source.length

end Scenario

/-- The result of a scenario. -/
structure Result where
  scenario : String
  family : String
  primitive : String
  passed : Bool
  expected : Expectation
  /-- Nothing if no trial could be run. -/
  observed : Option Expectation := none
  note : Option String := none
  /-- Nanoseconds. -/
  duration : UInt64 := 0
  deriving DecidableEq, Repr

namespace Result

/-- The fields of a result; a note may be left out. -/
def recordType : RecordType Result where
  wanted := "struct ScenarioResult"
  fields :=
    .cons (.required "scenario" .text) <|
    .cons (.required "family" .text) <|
    .cons (.required "primitive" .text) <|
    .cons (.required "passed" .flag) <|
    .cons (.required "expected" Expectation.codec) <|
    .cons (.nullable "observed" Expectation.codec) <|
    .cons (.optional "note" .text) <|
    .cons (.required "duration_ns" .word64) .nil
  ofRow := fun (scenario, family, primitive, passed, expected, observed, note, duration, ()) =>
    { scenario, family, primitive, passed, expected, observed, note, duration }
  toRow r := (r.scenario, r.family, r.primitive, r.passed, r.expected, r.observed, r.note,
    r.duration, ())

/-- How a result stands in a document. -/
def codec : Codec Result := .record recordType

/-- The note on two verdicts that differ. -/
def disagreement (expected observed : Expectation) : String :=
  "expected " ++ expected.wording ++ ", observed " ++ observed.wording

/-- The result of a scenario that was tried. -/
def ofAttempt (family : String) (s : Scenario) (attempt : Attempt) (duration : UInt64) : Result :=
  let observed := Expectation.ofVerdict attempt.verdict
  { scenario := s.name
    family
    primitive := s.primitive
    passed := observed = s.expect
    expected := s.expect
    observed := some observed
    note := if observed = s.expect then none else some (disagreement s.expect observed)
    duration }

/-- The result of a scenario whose primitive has no known name. -/
def unresolved (family : String) (s : Scenario) : Result where
  scenario := s.name
  family := family
  primitive := s.primitive
  passed := false
  expected := s.expect
  note := some (Failure.unknownPrimitive s.primitive).message

end Result

/-- Results with their counts. -/
structure Tally where
  total : UInt64
  passed : UInt64
  failed : UInt64
  results : List Result
  deriving DecidableEq, Repr

namespace Tally

/-- The fields of a tally. -/
def recordType : RecordType Tally where
  wanted := "struct SuiteSummary"
  fields :=
    .cons (.required "total" .size) <|
    .cons (.required "passed" .size) <|
    .cons (.required "failed" .size) <|
    .cons (.required "results" (.list Result.codec)) .nil
  ofRow := fun (total, passed, failed, results, ()) => { total, passed, failed, results }
  toRow t := (t.total, t.passed, t.failed, t.results, ())

/-- How a tally stands in a document. -/
def codec : Codec Tally := .record recordType

/-- Counts results. -/
def ofResults (results : List Result) : Tally :=
  let total := UInt64.ofNat results.length
  let passed := UInt64.ofNat (results.countP Result.passed)
  { total, passed, failed := total - passed, results }

/-- Whether no result failed, by the count. -/
def allPassed (t : Tally) : Bool := t.failed = 0

end Tally

end CopyTrial
