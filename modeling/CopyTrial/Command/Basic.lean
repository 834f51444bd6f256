import CopyTrial.Command.Flags

/-!
# Commands

## Main definitions

* `Command` — what the program can be asked for: one trial, a suite of fixtures, the names of the
  primitives, or a check of a log.
* `Command.ofArguments?` — the command that arguments ask for.
* `logVariable`, `chosenLog` — the environment variable that names a log, and the log to be used.
-/

set_option autoImplicit false

namespace CopyTrial

/-- One trial of a primitive. -/
structure RunOptions where
  primitive : String := "extern"
  source : Option String := none
  fill : String := "0"
  log : Option String := none
  deriving DecidableEq, Repr

/-- A suite of fixtures. -/
structure SuiteOptions where
  fixture : Option String := none
  report : Option String := none
  log : Option String := none
  timestamp : Option String := none
  deriving DecidableEq, Repr

/-- What the program can be asked for. -/
inductive Command where
  | run (options : RunOptions)
  | suite (options : SuiteOptions)
  | primitives
  | validateLog (log : String)
  deriving DecidableEq, Repr

namespace Command

/-- The flags of one trial. -/
def runFlags : List Flag :=
  [{ name := "primitive" }, { name := "source" }, { name := "fill" },
    { name := "log", isPath := true }]

/-- The flags of a suite. -/
def suiteFlags : List Flag :=
  [{ name := "fixture", isPath := true }, { name := "report", isPath := true },
    { name := "log", isPath := true }, { name := "timestamp" }]

/-- The flags of the check of a log. -/
def validateLogFlags : List Flag := [{ name := "log", isPath := true }]

/-- The command that arguments ask for, or nothing if they cannot be understood. -/
def ofArguments? : List String → Option Command
  | "run" :: args => do
    let given ← readFlags runFlags args
    some (.run
      { primitive := (given.lookup "primitive").getD "extern"
        source := given.lookup "source"
        fill := (given.lookup "fill").getD "0"
        log := given.lookup "log" })
  | "suite" :: args => do
    let given ← readFlags suiteFlags args
    some (.suite
      { fixture := given.lookup "fixture"
        report := given.lookup "report"
        log := given.lookup "log"
        timestamp := given.lookup "timestamp" })
  | "primitives" :: args => do
    let _ ← readFlags [] args
    some .primitives
  | "validate-log" :: args => do
    let given ← readFlags validateLogFlags args
    let log ← given.lookup "log"
    some (.validateLog log)
  | _ => none

end Command

/-- The environment variable that names a log. -/
def logVariable : String := "COPYCHECK_LOG"

/-- The log to be used: the one of a flag, or else the one of the environment unless it is
empty. -/
def chosenLog (flag variableValue : Option String) : Option String :=
  flag.or (variableValue.filter (· ≠ ""))

end CopyTrial
