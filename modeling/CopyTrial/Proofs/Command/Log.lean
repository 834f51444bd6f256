import CopyTrial.Command.Perform
import CopyTrial.Proofs.Log.File

/-!
# Logs of commands

A command that keeps a log opens it before it copies anything. The file is new or emptied then,
and the trace ids, which name the process, are well formed.

## Main definitions

* `Machine.runName` — the name of a run on a machine.

## Main results

* `run_openLog`, `run_openLog_of_not_canCreate` — what opening a log does.
* `Command.perform_eq` — how a command ends, by what carrying it out gives.
-/

set_option autoImplicit false

namespace CopyTrial

open FileTree Emitter

/-- The name of a run on a machine. -/
def Machine.runName (machine : Machine) : String := "pid" ++ Nat.repr machine.processId

/-- The trace ids of a run are well formed. -/
theorem isTraceId_runName {suite : String} (hsuite : ':' ∉ suite.toList) (machine : Machine)
    (number : Nat) : IsTraceId (traceId suite machine.runName number) := by
  have hname : machine.runName.toList = 'p' :: 'i' :: 'd' :: Nat.toDigits 10 machine.processId := by
    simp [Machine.runName, Nat.repr]
  have hrun : ':' ∉ machine.runName.toList := by
    rw [hname]
    simp only [List.mem_cons, Char.reduceEq, false_or]
    exact Json.not_mem_toDigits (by decide) machine.processId
  refine isTraceId_traceId (Text.not_hasPair_of_not_mem hsuite) (Text.not_hasPair_of_not_mem hrun)
    (fun h => hrun (List.mem_of_mem_head? h.2)) number

/-- **A log that can be opened is empty then**, and only directories above it are new besides. -/
theorem run_openLog {machine : Machine} {path : String} (h : machine.CanCreate path)
    (suite : String) :
    ∃ tree place e, GrowsAlong (Path.Above path) machine.tree tree ∧
      tree.fileSlot path = .ok place ∧
      machine.run (do makeParents path; Host.createFile path) =
        (.ok (), ({ machine with tree } : Machine).putFile place []) ∧
      machine.run (openLog path suite) =
        (.ok e, ({ machine with tree } : Machine).putFile place []) ∧
      e.HasLogged path place suite machine.runName
        (({ machine with tree } : Machine).putFile place []) []
        (({ machine with tree } : Machine).putFile place []) := by
  obtain ⟨tree, place, hgrows, hslot, hrun⟩ := Machine.run_create h
  refine ⟨tree, place, ⟨suite, machine.runName, 0, .file path []⟩, hgrows, hslot, hrun, ?_, rfl,
    rfl, rfl, ⟨[], [], rfl, Machine.locate_putFile hslot [], rfl⟩, rfl, by simp, ?_⟩
  · have hopen : machine.run (toFile path suite machine.runName) =
        (.ok ⟨suite, machine.runName, 0, .file path []⟩,
          ({ machine with tree } : Machine).putFile place []) := by
      rw [run_toFile, hrun]
    rw [openLog, Machine.run_bind, Machine.run_lift]
    exact Machine.run_adapt_of_ok hopen (Failure.logNotOpened path)
  · exact ⟨[], machine.wallReadings, machine.tickReadings, by simp [Machine.putFile, put_put]⟩

/-- Where a log cannot be opened, only directories above it may be new. -/
theorem run_openLog_of_not_canCreate {machine : Machine} {path : String}
    (h : ¬ machine.CanCreate path) (suite : String) :
    ∃ e tree, GrowsAlong (Path.Above path) machine.tree tree ∧
      machine.run (openLog path suite) =
        (.error (.logNotOpened path e), { machine with tree }) := by
  obtain ⟨e, tree, hgrows, hrun⟩ := Machine.run_create_of_not_canCreate h
  refine ⟨e, tree, hgrows, ?_⟩
  have hopen : machine.run (toFile path suite machine.runName) =
      (.error e, { machine with tree }) := by
    rw [run_toFile, hrun]
  rw [openLog, Machine.run_bind, Machine.run_lift]
  exact Machine.run_adapt_of_error hopen (Failure.logNotOpened path)

namespace Command

/-- **How a command ends**: with the exit code that carrying it out gives, or with that of a
failure, which is told. -/
theorem perform_eq (command : Command) (variableValue : Option String) (machine : Machine) :
    (command.perform variableValue : StateM Machine UInt8) machine =
      match machine.run (command.execute variableValue) with
      | (.ok code, after) => (code, after)
      | (.error failure, after) =>
        (failure.exitCode,
          { after with messages := after.messages ++ ("error: " ++ failure.message ++ "\n") }) := by
  rcases h : machine.run (command.execute variableValue) with ⟨_ | code, after⟩ <;>
    simp only [Machine.run, StateT.run, perform, bind, StateT.bind] at h ⊢ <;>
    rw [h] <;> rfl

/-- A command that is carried out ends with the exit code that this gives. -/
theorem perform_eq_of_ok {command : Command} {variableValue : Option String}
    {machine after : Machine} {code : UInt8}
    (h : machine.run (command.execute variableValue) = (.ok code, after)) :
    (command.perform variableValue : StateM Machine UInt8) machine = (code, after) := by
  rw [perform_eq, h]

/-- A command that fails ends with the exit code of the failure, which is told. -/
theorem perform_of_error {command : Command} {variableValue : Option String}
    {machine after : Machine} {failure : Failure} {code : UInt8} (hcode : failure.exitCode = code)
    (h : machine.run (command.execute variableValue) = (.error failure, after)) :
    ∃ told, (command.perform variableValue : StateM Machine UInt8) machine = (code, told) ∧
      told.tree = after.tree ∧ told.output = after.output := by
  rw [perform_eq, h]
  exact ⟨_, congrArg (·, _) hcode, rfl, rfl⟩

end Command

end CopyTrial
