import CopyTrial.Artifact
import CopyTrial.Campaign.Report
import CopyTrial.Campaign.Run
import CopyTrial.Command.Run
import CopyTrial.Fixture.Load

/-!
# A suite on a host

The fixtures of a suite are loaded, run and tallied. The results go to messages, to a log and to a
report, beside which stand its JSON form and an index of all that was written.

## Main definitions

* `reportJsonPath`, `reportIndexPath` — the files beside a report.
* `Report.save` — writes a report and what stands beside it.
* `SuiteOptions.run` — the command.
-/

set_option autoImplicit false

namespace CopyTrial

/-- The path of the JSON form beside a report. -/
def reportJsonPath (path : String) : String := Path.withExtension path "json"

/-- The path of the index beside a report. -/
def reportIndexPath (path : String) : String := Path.withExtension path "artifacts.json"

/-- The title of the report on a suite. -/
def suiteTitle : String := "copycheck Suite Report"

/-- The name of the campaign that a suite is, and of its log. -/
def suiteName : String := "suite"

/-- The message with the counts of a tally. -/
def Tally.message (t : Tally) : String :=
  "Suite complete: total=" ++ Nat.repr t.total.toNat ++ ", passed=" ++ Nat.repr t.passed.toNat ++
    ", failed=" ++ Nat.repr t.failed.toNat ++ "\n"

/-- The message on a result that did not pass. -/
def Result.failureMessage (r : Result) : String :=
  "FAIL " ++ r.scenario ++ ": " ++ r.note.getD "no detail" ++ "\n"

/-- The messages on a tally: its counts, and a line for each result that did not pass. -/
def Tally.messages (t : Tally) : List String :=
  t.message :: (t.results.filter fun r => !r.passed).map Result.failureMessage

/-- The details of a tally in a log. -/
def Tally.details (t : Tally) : FreeForm :=
  detailsOf
    [("total", .integer t.total.toNat), ("passed", .integer t.passed.toNat),
      ("failed", .integer t.failed.toNat)]

section

variable {m : Type → Type} [Monad m] [Host m]

/-- Writes messages in order. -/
def warnAll : List String → m Unit
  | [] => pure ()
  | message :: rest => do
    Host.warn message
    warnAll rest

/-- The last entry of the log of a suite. -/
def Tally.entry (t : Tally) (report : Option String) : m Entry := do
  let entry ← Entry.now "" (if t.allPassed then .info else .error) "suite_complete"
  pure
    { entry with
      details := some t.details
      artifacts := report.map fun path => [path, reportJsonPath path] }

/-- Writes a report as Markdown and as JSON, and an index of both and of the log. -/
def Report.save (r : Report) (path : String) (log : Option String) : ExceptT IoError m Unit := do
  let markdown := Bytes.ofText r.markdown
  let json := Bytes.ofText r.json
  makeParents path
  writeFile path markdown
  writeFile (reportJsonPath path) json
  let id ← (runId : m String)
  let index ← (ArtifactIndex.now id : m ArtifactIndex)
  let index := index.add path "report_md" markdown
  let index := index.add (reportJsonPath path) "report_json" json
  let index ← match log with
    | some log => index.addFile log "log_jsonl"
    | none => pure index
  writeFile (reportIndexPath path) (Bytes.ofText index.json)
  (Host.warn ("Wrote report to " ++ path ++ " (" ++ reportJsonPath path ++ ", " ++
    reportIndexPath path ++ ")\n") : m Unit)

/-- Runs fixtures, with a log if there is an emitter. -/
def runFixtures (fixtures : List Fixture) (emitter : Option Emitter) :
    ExceptT IoError m (List Result × Option Emitter) :=
  match emitter with
  | none => do
    let results ← (Fixture.runAll fixtures : m (List Result))
    pure (results, none)
  | some e => do
    let (results, e) ← Fixture.runAllLogged e fixtures
    pure (results, some e)

/-- The fixtures of a suite: those that a path leads to, or the one that is built in. -/
def suiteFixtures (path : Option String) : ExceptT Failure m (List Fixture) :=
  match path with
  | none => pure [.builtin]
  | some path => do
    (Host.warn ("Loading scenarios from " ++ path ++ "\n") : m Unit)
    Fixture.load path

/-- Runs a suite. Results that did not pass are a failure, after everything has been written. -/
def SuiteOptions.run (options : SuiteOptions) (variableValue : Option String) :
    ExceptT Failure m UInt8 := do
  let fixtures ← suiteFixtures options.fixture
  let log := chosenLog options.log variableValue
  let emitter ← openLog? log suiteName
  let (results, emitter) ←
    (runFixtures fixtures emitter : ExceptT IoError m (List Result × Option Emitter)).adapt
      Failure.stream
  let timestamp ← match options.timestamp with
    | some timestamp => pure timestamp
    | none => (presentTime : m String)
  let tally := Tally.ofResults results
  (warnAll tally.messages : m Unit)
  match emitter with
  | none => pure ()
  | some e =>
    let entry ← (tally.entry options.report : m Entry)
    let finish : ExceptT IoError m Unit := do
      let e ← e.emitEntry entry
      let _ ← e.flush
    finish.adapt .stream
  match options.report with
  | none => pure ()
  | some path =>
    let report : Report := { title := suiteTitle, campaign := suiteName, timestamp, tally }
    (report.save path log : ExceptT IoError m Unit).adapt Failure.io
  if tally.allPassed then pure 0 else throw (.unexpectedResults tally.failed tally.total)

end

end CopyTrial
