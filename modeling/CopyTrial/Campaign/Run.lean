import CopyTrial.Campaign.Result
import CopyTrial.Log.Emitter

/-!
# Running fixtures

The scenarios of a fixture are run in order. A run may be logged, with one entry for each
scenario; the results are the same.

## Main definitions

* `Scenario.run` — runs a scenario by the stopwatch.
* `Fixture.run`, `Fixture.runLogged` — run a fixture without and with a log.
* `Scenario.entry` — the entry on a scenario that has been run.
-/

set_option autoImplicit false

namespace CopyTrial

namespace Scenario

/-- Runs a scenario: its result, and the attempt unless its primitive has no known name. -/
def run {m : Type → Type} [Monad m] [Clock m] (family : String) (s : Scenario) :
    m (Result × Option Attempt) :=
  match Kind.read? s.primitive with
  | none => pure (.unresolved family s, none)
  | some kind => do
    let started ← Clock.stopwatch
    let attempt := s.attempt kind
    let ended ← Clock.stopwatch
    pure (.ofAttempt family s attempt (elapsed started ended), some attempt)

/-- Adds to an entry how the scenario ended. Without an attempt there is no verdict, and the note
on the result says why. -/
def conclude (s : Scenario) (result : Result) (attempt : Option Attempt) (entry : Entry) : Entry :=
  match attempt with
  | some attempt =>
    { entry with
      primitive := some s.primitive
      size := some attempt.size
      exitCode := some attempt.verdict.exitCode
      outcome := some (.ofVerdict attempt.verdict)
      divergence := attempt.verdict.divergence.map .ofDivergence
      details := some (detailsOf
        [("expected", Expectation.codec.write s.expect),
          ("matched_expectation", .boolean result.passed)]) }
  | none =>
    { entry with
      outcome := some .error
      details := some (detailsOf
        [("expected", Expectation.codec.write s.expect),
          ("error", .text (result.note.getD ""))]) }

/-- The entry on a scenario that has been run. -/
def entry {m : Type → Type} [Monad m] [Clock m] (traceId : String) (s : Scenario)
    (result : Result) (attempt : Option Attempt) : m Entry := do
  let entry ← Entry.now traceId (if result.passed then .info else .error) "scenario_result"
  pure (s.conclude result attempt
    { entry with
      scenario := some s.name
      fill := some s.fill
      duration := some result.duration })

end Scenario

namespace Fixture

section

variable {m : Type → Type} [Monad m]

/-- Runs scenarios in order. -/
def runCases [Clock m] (family : String) : List Scenario → m (List Result)
  | [] => pure []
  | s :: rest => do
    let (result, _) ← s.run family
    let results ← runCases family rest
    pure (result :: results)

/-- Runs a fixture. -/
def run [Clock m] (f : Fixture) : m (List Result) := runCases f.family f.cases

/-- Runs scenarios in order and logs each. -/
def runCasesLogged [Host m] (family : String) (e : Emitter) :
    List Scenario → ExceptT IoError m (List Result × Emitter)
  | [] => pure ([], e)
  | s :: rest => do
    let (result, attempt) ← (s.run family : m (Result × Option Attempt))
    let (id, e) := e.nextTraceId
    let entry ← (s.entry id result attempt : m Entry)
    let e ← e.emitEntry entry
    let (results, e) ← runCasesLogged family e rest
    pure (result :: results, e)

/-- Runs a fixture and logs each scenario. -/
def runLogged [Host m] (f : Fixture) (e : Emitter) :
    ExceptT IoError m (List Result × Emitter) :=
  runCasesLogged f.family e f.cases

/-- Runs fixtures in order. -/
def runAll [Clock m] : List Fixture → m (List Result)
  | [] => pure []
  | f :: rest => do
    let results ← f.run
    let more ← runAll rest
    pure (results ++ more)

/-- Runs fixtures in order and logs each scenario. -/
def runAllLogged [Host m] (e : Emitter) :
    List Fixture → ExceptT IoError m (List Result × Emitter)
  | [] => pure ([], e)
  | f :: rest => do
    let (results, e) ← f.runLogged e
    let (more, e) ← runAllLogged e rest
    pure (results ++ more, e)

end

end Fixture

end CopyTrial
