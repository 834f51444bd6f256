import CopyTrial.Command.Suite
import CopyTrial.Log.Validation

/-!
# Carrying out commands

## Main definitions

* `Command.perform` — carries out a command; the exit code tells how it ended.
* `usualCheck` — the trial of the external primitive with the usual literal, without any command.
-/

set_option autoImplicit false

namespace CopyTrial

/-- A name with blanks up to the second column of the catalog. -/
def catalogName (name : String) : String :=
  name ++ String.ofList (List.replicate (14 - name.length) ' ')

/-- The catalog of primitives, one a line. -/
def catalogText : String :=
  String.join (Kind.catalog.map fun (name, description) =>
    catalogName name ++ " " ++ description ++ "\n")

section

variable {m : Type → Type} [Monad m] [Host m]

/-- Checks a log: its violations are told, and then their number or that there are none. -/
def checkLog (path : String) : ExceptT Failure m UInt8 := do
  let text ← (readText path : ExceptT IoError m String).adapt Failure.stream
  let (lines, violations) := validateText text
  (warnAll (violations.map fun v => v.wording ++ "\n") : m Unit)
  if violations.isEmpty then
    (Host.warn (Nat.repr lines ++ " line(s) valid in " ++ path ++ "\n") : m Unit)
    pure 0
  else throw (.violations violations.length lines path)

namespace Command

/-- Carries out a command; the value of the environment variable names a log. -/
def execute (command : Command) (variableValue : Option String) : ExceptT Failure m UInt8 :=
  match command with
  | .run options => options.run variableValue
  | .suite options => options.run variableValue
  | .primitives => do
    (Host.print (Bytes.ofText catalogText) : ExceptT IoError m Unit).adapt Failure.stream
    pure 0
  | .validateLog log => checkLog log

/-- Carries out a command and tells a failure, if there is one. -/
def perform (command : Command) (variableValue : Option String) : m UInt8 := do
  match ← (command.execute variableValue : ExceptT Failure m UInt8).run with
  | .ok code => pure code
  | .error failure =>
    Host.warn ("error: " ++ failure.message ++ "\n")
    pure failure.exitCode

end Command

/-- Tries the external primitive with the usual literal. -/
def usualCheck : m UInt8 := do
  match ← (Trial.usual.runReporting Kind.external.primitive : ExceptT IoError m Verdict).run with
  | .ok verdict => pure verdict.exitCode
  | .error error =>
    Host.warn ("error: " ++ error.message ++ "\n")
    pure 1

end

end CopyTrial
