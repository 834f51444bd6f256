import CopyTrial.Campaign.Result

/-!
# Reports

A report is the tally of a campaign with a title and a time. It is written as Markdown or as JSON.

## Main definitions

* `Report`, `Report.codec` — a report, and how it stands in a document.
* `Report.markdown` — the report as Markdown: the counts, a table of the results, and the notes.
-/

set_option autoImplicit false

namespace CopyTrial

/-- The tally of a campaign with a title and a time. -/
structure Report where
  title : String
  campaign : String
  timestamp : String
  tally : Tally
  deriving DecidableEq, Repr

namespace Report

/-- The fields of a report. -/
def recordType : RecordType Report where
  wanted := "struct SuiteReport"
  fields :=
    .cons (.required "title" .text) <|
    .cons (.required "campaign" .text) <|
    .cons (.required "timestamp" .text) <|
    .cons (.required "summary" Tally.codec) .nil
  ofRow := fun (title, campaign, timestamp, tally, ()) => { title, campaign, timestamp, tally }
  toRow r := (r.title, r.campaign, r.timestamp, r.tally, ())

/-- How a report stands in a document. -/
def codec : Codec Report := .record recordType

/-- The report as a JSON document. -/
def json (r : Report) : String := codec.pretty r

/-- The title and the counts. -/
def heading (r : Report) : String :=
  "# " ++ r.title ++ "\n\n" ++
    "- Campaign: " ++ r.campaign ++ "\n" ++
    "- Timestamp: " ++ r.timestamp ++ "\n" ++
    "- Total: " ++ Nat.repr r.tally.total.toNat ++ "\n" ++
    "- Passed: " ++ Nat.repr r.tally.passed.toNat ++ "\n" ++
    "- Failed: " ++ Nat.repr r.tally.failed.toNat ++ "\n\n"

/-- The first two lines of the table. -/
def tableHead : String :=
  "| Scenario | Primitive | Expected | Observed | Status |\n" ++
    "|----------|-----------|----------|----------|--------|\n"

/-- The verdict in the column of what was observed. -/
def observedCell : Option Expectation → String
  | some e => e.wording
  | none => "-"

/-- The line of a result in the table. -/
def tableRow (r : Result) : String :=
  "| " ++ r.scenario ++ " | " ++ r.primitive ++ " | " ++ r.expected.wording ++ " | " ++
    observedCell r.observed ++ " | " ++ (if r.passed then "PASS" else "FAIL") ++ " |\n"

/-- The line of a result in the list of notes. -/
def noteLine (r : Result) : Option String :=
  r.note.map fun note => "- `" ++ r.scenario ++ "`: " ++ note ++ "\n"

/-- The list of notes under its heading, if there are any. -/
def notes (results : List Result) : String :=
  match results.filterMap noteLine with
  | [] => ""
  | lines => "\n## Notes\n\n" ++ String.join lines

/-- The report as Markdown. -/
def markdown (r : Report) : String :=
  r.heading ++ tableHead ++ String.join (r.tally.results.map tableRow) ++ notes r.tally.results

end Report

end CopyTrial
