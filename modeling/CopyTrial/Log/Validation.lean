import CopyTrial.Log.Entry
import CopyTrial.Text.Blank
import CopyTrial.Text.Lines

/-!
# Rules of a log

A line of a log must hold an entry, and the entry must keep some rules beyond its form. The rules
are checked on the document first, so that all that are broken can be told at once; only a line
that keeps them is read as an entry.

## Main definitions

* `Breach`, `Breach.field`, `Breach.message` — a broken rule, the field concerned, and its wording.
* `Violation` — a broken rule with the number of the line.
* `breaches` — the rules that a document breaks.
* `validateLine`, `validateText` — the entry or the broken rules of a line, and of a whole log.
-/

set_option autoImplicit false

namespace CopyTrial

/-- A rule that a line breaks. -/
inductive Breach where
  | notJson (error : Json.Error)
  | notObject
  | fieldMissing (field : String)
  | badLevel (level : String)
  | badOutcome (outcome : String)
  /-- A trial of a primitive failed, and it is not said where. -/
  | divergenceMissing
  /-- It is said where a trial failed that did not fail. -/
  | divergenceStray
  | badExitCode (code : Nat)
  | badTraceId (id : String)
  /-- The rules are kept, but the document is not an entry. -/
  | notEntry (cause : Json.Cause)

namespace Breach

/-- The field that a broken rule concerns, or what stands for it in messages. -/
def field : Breach → String
  | .notJson _ => "<json>"
  | .notObject => "<root>"
  | .fieldMissing field => field
  | .badLevel _ => "level"
  | .badOutcome _ => "outcome"
  | .divergenceMissing => "divergence"
  | .divergenceStray => "divergence"
  | .badExitCode _ => "exit_code"
  | .badTraceId _ => "trace_id"
  | .notEntry _ => "<deserialization>"

/-- The wording of a broken rule. -/
def message : Breach → String
  | .notJson error => "invalid JSON: " ++ error.message
  | .notObject => "expected JSON object"
  | .fieldMissing _ => "required field missing"
  | .badLevel level => "invalid level: '" ++ level ++ "'"
  | .badOutcome outcome => "invalid outcome: '" ++ outcome ++ "'"
  | .divergenceMissing => "fail outcomes for a primitive run must include divergence"
  | .divergenceStray => "divergence is only allowed on fail outcomes"
  | .badExitCode code => "exit_code must be 0 or 1, got " ++ Nat.repr code
  | .badTraceId id =>
    "trace_id should follow <suite>::<run_id>::<seq> format, got: '" ++ id ++ "'"
  | .notEntry cause => "failed to deserialize: " ++ cause.message

end Breach

/-- A rule that a line breaks, with the number of the line. -/
structure Violation where
  line : Nat
  breach : Breach

/-- The wording of a violation. -/
def Violation.wording (v : Violation) : String :=
  "line " ++ Nat.repr v.line ++ ": field '" ++ v.breach.field ++ "': " ++ v.breach.message

/-- The members that every entry has. -/
def requiredMembers : List String := ["timestamp", "trace_id", "level", "event"]

/-- The text of a member, if it is a text. -/
def textMember? (j : Json) (name : String) : Option String :=
  match j.member? name with
  | some (.text s) => some s
  | _ => none

/-- The members that are missing. -/
def missingBreaches (j : Json) : List Breach :=
  (requiredMembers.filter fun name => (j.member? name).isNone).map .fieldMissing

/-- A level that is a text must be the name of one. -/
def levelBreaches (j : Json) : List Breach :=
  match textMember? j "level" with
  | some level => if level ∈ Level.all.map Level.name then [] else [.badLevel level]
  | none => []

/-- An outcome that is a text must be the name of one. -/
def outcomeBreaches (j : Json) : List Breach :=
  match textMember? j "outcome" with
  | some outcome => if outcome ∈ Outcome.all.map Outcome.name then [] else [.badOutcome outcome]
  | none => []

/-- Whether a document has a divergence that is an object. -/
def hasDivergence (j : Json) : Bool :=
  match j.member? "divergence" with
  | some (.object _) => true
  | _ => false

/-- A divergence belongs to failed outcomes, and a failed one of a primitive needs it. -/
def divergenceBreaches (j : Json) : List Breach :=
  let failed := textMember? j "outcome" = some Outcome.fail.name
  if failed then
    if (j.member? "primitive").isSome && !hasDivergence j then [.divergenceMissing] else []
  else if hasDivergence j then [.divergenceStray] else []

/-- An exit code that is a natural number must be 0 or 1. -/
def exitCodeBreaches (j : Json) : List Breach :=
  match j.member? "exit_code" with
  | some (.integer code) => if 1 < code then [.badExitCode code.toNat] else []
  | _ => []

/-- A trace id has three pieces between pairs of colons. -/
def IsTraceId (id : String) : Prop := (Text.splitPairs id).length = 3

instance (id : String) : Decidable (IsTraceId id) := inferInstanceAs (Decidable (_ = _))

/-- A trace id that is a text must be well formed. -/
def traceIdBreaches (j : Json) : List Breach :=
  match textMember? j "trace_id" with
  | some id => if IsTraceId id then [] else [.badTraceId id]
  | none => []

/-- The rules that an object breaks, in the order in which they are told. -/
def breaches (j : Json) : List Breach :=
  missingBreaches j ++ levelBreaches j ++ outcomeBreaches j ++ divergenceBreaches j ++
    exitCodeBreaches j ++ traceIdBreaches j

/-- The entry of a document, or the rules that it breaks. -/
def validateDocument (j : Json) : Except (List Breach) Entry :=
  match j with
  | .object _ =>
    match breaches j with
    | [] =>
      match Entry.codec.decode j with
      | .ok entry => .ok entry
      | .error cause => .error [.notEntry cause]
    | broken => .error broken
  | _ => .error [.notObject]

/-- The entry of a line, or the rules that it breaks. -/
def validateLine (line : String) : Except (List Breach) Entry :=
  match Codec.freeForm.parse line with
  | .ok document => validateDocument document.json
  | .error e => .error [.notJson e]

/-- The lines of a log that are not blank, with their numbers and without the blanks around them.
Every line is numbered, the first one with 1. -/
def contentLines (text : String) : List (Nat × String) :=
  (((Text.lines text).map Text.trim).zipIdx 1).filterMap fun (line, number) =>
    if line = "" then none else some (number, line)

/-- The violations of a line. -/
def lineViolations (number : Nat) (line : String) : List Violation :=
  match validateLine line with
  | .ok _ => []
  | .error broken => broken.map fun breach => ⟨number, breach⟩

/-- The number of lines of a log that are not blank, and the violations in them. -/
def validateText (text : String) : Nat × List Violation :=
  let lines := contentLines text
  (lines.length, lines.flatMap fun (number, line) => lineViolations number line)

end CopyTrial
