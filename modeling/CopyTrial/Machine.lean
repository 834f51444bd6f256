import CopyTrial.FileTree
import CopyTrial.Host

/-!
# A model of the machine

A machine as a value: its files, what its clocks show at each reading, and what has been written.
Programs for any host are evaluated on it.

## Main definitions

* `Machine` — the state.
* `Machine.query`, `Machine.edit` — a question to the file tree, and a change of it.
* `Machine.run` — what an action gives on a machine, and the machine afterwards.

## Main results

* `Machine.run_bind`, `Machine.run_lift`, `Machine.run_adapt`, `Machine.run_tryCatch` — how actions
  that are made of others run.
-/

set_option autoImplicit false

namespace CopyTrial

/-- The state of a machine. -/
structure Machine where
  tree : FileTree := {}
  /-- What the wall clock shows at each reading. -/
  wall : Nat → Instant := fun _ => ⟨0, 0⟩
  /-- How often the wall clock has been read. -/
  wallReadings : Nat := 0
  /-- What the stopwatch shows at each reading. -/
  ticks : Nat → Int := fun _ => 0
  /-- How often the stopwatch has been read. -/
  tickReadings : Nat := 0
  processId : Nat := 0
  output : Bytes := []
  messages : String := ""

namespace Machine

/-- Asks something of the file tree. -/
def query {α : Type} (ask : FileTree → Except IoError α) : ExceptT IoError (StateM Machine) α :=
  fun machine => (ask machine.tree, machine)

/-- Changes the file tree, unless there is an error. -/
def edit (change : FileTree → Except IoError FileTree) : ExceptT IoError (StateM Machine) Unit :=
  fun machine =>
    match change machine.tree with
    | .ok tree => (.ok (), { machine with tree })
    | .error e => (.error e, machine)

end Machine

instance : Host (StateM Machine) where
  wallClock := fun machine =>
    (machine.wall machine.wallReadings,
      { machine with wallReadings := machine.wallReadings + 1 })
  stopwatch := fun machine =>
    (machine.ticks machine.tickReadings,
      { machine with tickReadings := machine.tickReadings + 1 })
  readFile path := Machine.query (·.read path)
  isFile path := fun machine => (machine.tree.isFile path, machine)
  isDirectory path := fun machine => (machine.tree.isDirectory path, machine)
  listDirectory path := Machine.query (·.list path)
  makeDirectory path := Machine.edit (·.makeDirectory path)
  createFile path := Machine.edit (·.create path)
  appendFile path bytes := Machine.edit (·.append path bytes)
  print bytes := fun machine => (.ok (), { machine with output := machine.output ++ bytes })
  warn message := fun machine => ((), { machine with messages := machine.messages ++ message })
  processId := fun machine => (machine.processId, machine)

namespace Machine

variable {ε ε' α β : Type}

/-- What an action gives on a machine, and the machine afterwards. -/
def run (machine : Machine) (action : ExceptT ε (StateM Machine) α) : Except ε α × Machine :=
  StateT.run (ExceptT.run action) machine

/-- A value is given at once. -/
@[simp] theorem run_pure (machine : Machine) (a : α) :
    machine.run (pure a : ExceptT ε (StateM Machine) α) = (.ok a, machine) := rfl

/-- An error is given at once. -/
@[simp] theorem run_throw (machine : Machine) (e : ε) :
    machine.run (throw e : ExceptT ε (StateM Machine) α) = (.error e, machine) := rfl

/-- The second of two actions starts from what the first one leaves, unless that is an error. -/
theorem run_bind (machine : Machine) (action : ExceptT ε (StateM Machine) α)
    (next : α → ExceptT ε (StateM Machine) β) :
    machine.run (action >>= next) =
      match machine.run action with
      | (.ok a, after) => after.run (next a)
      | (.error e, after) => (.error e, after) := by
  rcases h : machine.run action with ⟨_ | a, after⟩ <;>
    simp only [run, ExceptT.run, bind, ExceptT.bind, ExceptT.mk, StateT.run, StateT.bind] at h ⊢ <;>
    rw [h] <;> rfl

/-- An action that cannot fail. -/
@[simp] theorem run_lift (machine : Machine) (action : StateM Machine α) :
    machine.run (liftM action : ExceptT ε (StateM Machine) α) =
      (.ok (action machine).1, (action machine).2) := rfl

/-- An action whose errors are told in another way. -/
@[simp] theorem run_adapt (machine : Machine) (f : ε → ε') (action : ExceptT ε (StateM Machine) α) :
    machine.run (action.adapt f) =
      ((machine.run action).1.mapError f, (machine.run action).2) := rfl

/-- An action whose errors are handled. -/
theorem run_tryCatch (machine : Machine) (action : ExceptT ε (StateM Machine) α)
    (handle : ε → ExceptT ε (StateM Machine) α) :
    machine.run (tryCatch action handle) =
      match machine.run action with
      | (.ok a, after) => (.ok a, after)
      | (.error e, after) => after.run (handle e) := by
  rcases h : machine.run action with ⟨_ | a, after⟩ <;>
    simp only [run, ExceptT.run, tryCatch, tryCatchThe, MonadExceptOf.tryCatch, ExceptT.tryCatch,
      ExceptT.mk, bind, StateT.run, StateT.bind] at h ⊢ <;>
    rw [h] <;> rfl

end Machine

end CopyTrial
