import CopyTrial.Command.Basic
import CopyTrial.Failure
import CopyTrial.Fill
import CopyTrial.Log.Emitter
import CopyTrial.Primitive.Kind
import CopyTrial.Trial

/-!
# One trial on a host

A trial is run on a host: its diagnostic line goes to the output. The command for one trial also
keeps a log, which is opened before anything is copied.

## Main definitions

* `Trial.runReporting` — a trial whose diagnostic line is printed.
* `openLog` — an emitter for a log file.
* `RunOptions.run` — the command.
-/

set_option autoImplicit false

namespace CopyTrial

section

variable {m : Type → Type} [Monad m] [Host m]

/-- Runs a trial and prints the diagnostic line if the verdict is failing. -/
def Trial.runReporting (t : Trial) (p : Primitive) : ExceptT IoError m Verdict := do
  match t.verdict p with
  | .pass => pure .pass
  | .fail d =>
    Host.print d.diagnosticLine
    pure (.fail d)

/-- The name of a run, which has the number of the process. -/
def runId : m String := do
  let number ← Host.processId
  pure ("pid" ++ Nat.repr number)

/-- An emitter for a log file. -/
def openLog (path suite : String) : ExceptT Failure m Emitter := do
  let id ← (runId : m String)
  (Emitter.toFile path suite id : ExceptT IoError m Emitter).adapt (Failure.logNotOpened path)

/-- An emitter for a log file, if there is to be one. -/
def openLog? (path : Option String) (suite : String) : ExceptT Failure m (Option Emitter) :=
  match path with
  | none => pure none
  | some path => some <$> openLog path suite

/-- The entry on one trial. -/
def Trial.entry (t : Trial) (p : Primitive) (verdict : Verdict) (duration : UInt64) : m Entry := do
  let entry ← Entry.now "" .info "harness_result"
  pure
    { entry with
      primitive := some p.name
      size := some (UInt64.ofNat t.source.length)
      fill := some t.fill
      exitCode := some verdict.exitCode
      duration := some duration
      outcome := some (.ofVerdict verdict)
      divergence := verdict.divergence.map .ofDivergence
      details := verdict.divergence.map fun d => detailsOf [("error", .text d.complaint)] }

/-- Runs one trial: the exit code tells the verdict. -/
def RunOptions.run (options : RunOptions) (variableValue : Option String) :
    ExceptT Failure m UInt8 := do
  let some kind := Kind.read? options.primitive | throw (.unknownPrimitive options.primitive)
  let some fill := Fill.read? options.fill | throw (.invalidFill options.fill)
  let trial : Trial := ⟨Bytes.ofText (options.source.getD helloWorld), fill⟩
  let emitter ← openLog? (chosenLog options.log variableValue) "run"
  let emitter ← emitter.mapM fun e =>
    (Prod.snd <$> e.emit .debug "harness_start" : ExceptT IoError m Emitter).adapt .stream
  let started ← (Clock.stopwatch : m Int)
  let verdict ← (trial.runReporting kind.primitive : ExceptT IoError m Verdict).adapt .stream
  let ended ← (Clock.stopwatch : m Int)
  match emitter with
  | none => pure ()
  | some e =>
    let entry ← (trial.entry kind.primitive verdict (elapsed started ended) : m Entry)
    let finish : ExceptT IoError m Unit := do
      let e ← e.emitEntry entry
      let _ ← e.flush
    finish.adapt .stream
  pure verdict.exitCode

end

end CopyTrial
