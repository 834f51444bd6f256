import Mathlib.Data.List.Pairwise
import CopyTrial.Proofs.Calendar.Order
import CopyTrial.Proofs.Campaign.Entries
import CopyTrial.Proofs.Log.Twins

/-!
# Timestamps along a log

Each entry of a log is stamped by a reading of the wall clock that is made for it, after the
readings for the entries before it. So timestamps do not fall along a log, as texts, if the wall
clock does not go back. Where the log is kept does not matter.

## Main definitions

* `Machine.SteadyClock` — a wall clock that does not go back.
* `Machine.Stamps` — entries that are stamped by readings of a wall clock, one after the other.
* `Emitter.Holds` — what an emitter has written, to memory or to a file.
* `Emitter.Stamped` — what an emitter has written are entries stamped one after the other.

## Main results

* `Machine.SteadyClock.pairwise_timestamp_le` — timestamps do not fall along a log.
* `Emitter.Stamped.run_emit`, `Emitter.Stamped.run_emitEntry` — each way to log an entry goes on
  with the next reading.
* `Emitter.Stamped.run_finish` — the last entry is logged, and the file holds the whole log.
* `Emitter.Stamped.run_runAllLogged` — running fixtures goes on with a reading for each scenario.
-/

set_option autoImplicit false

namespace CopyTrial

open FileTree

/-! ## Readings of a wall clock -/

namespace Machine

/-- The wall clock does not go back, and shows what has a timestamp of the usual width. -/
structure SteadyClock (machine : Machine) : Prop where
  regular : ∀ k, (machine.wall k).Regular
  steady : ∀ j k, j ≤ k → (machine.wall j).NotAfter (machine.wall k)

/-- Entries that are stamped by a wall clock, each by a later reading than the one before it. -/
def Stamps (machine : Machine) (entries : List Entry) : Prop :=
  ∃ readings : List Nat, readings.Pairwise (· < ·) ∧
    entries.map Entry.timestamp = readings.map fun k => (machine.wall k).timestamp

/-- A later reading of a steady clock gives no earlier timestamp. -/
theorem SteadyClock.timestamp_le {machine : Machine} (h : machine.SteadyClock) {j k : Nat}
    (hjk : j ≤ k) : (machine.wall j).timestamp ≤ (machine.wall k).timestamp :=
  (h.steady j k hjk).timestamp_le (h.regular j) (h.regular k)

/-- **Timestamps do not fall along a log** if the wall clock does not go back. -/
theorem SteadyClock.pairwise_timestamp_le {machine : Machine} (h : machine.SteadyClock)
    {entries : List Entry} (hstamps : machine.Stamps entries) :
    (entries.map Entry.timestamp).Pairwise (· ≤ ·) := by
  obtain ⟨readings, hreadings, heq⟩ := hstamps
  rw [heq, List.pairwise_map]
  exact hreadings.imp fun hlt => h.timestamp_le (Nat.le_of_lt hlt)

end Machine

/-- The entry on a scenario keeps the timestamp that it was made with. -/
theorem Scenario.timestamp_record (s : Scenario) (timestamp id : String) (result : Result)
    (attempt : Option Attempt) :
    (s.record timestamp id result attempt).timestamp = timestamp := by
  cases attempt <;> rfl

namespace Emitter

/-! ## What has been written -/

/-- What an emitter has written, to memory or to the file at a place, are the lines of entries. -/
def Holds (log : Option (String × Place)) (entries : List Entry) (e : Emitter) (machine : Machine) :
    Prop :=
  match log with
  | none => e.sink = .memory (logText entries)
  | some (path, place) => e.OnFile path place (logText entries) machine

variable {log : Option (String × Place)} {entries : List Entry} {e e' : Emitter}
  {opened machine machine' : Machine}

/-- Only where an emitter writes to matters, and the files of the machine. -/
theorem Holds.congr (h : Holds log entries e machine) (hsink : e'.sink = e.sink)
    (htree : machine'.tree = machine.tree) : Holds log entries e' machine' := by
  cases log with
  | none => exact hsink.trans h
  | some place =>
    obtain ⟨held, content, hfile, hlocate, htext⟩ := h
    exact ⟨held, content, hsink.trans hfile, htree ▸ hlocate, htext⟩

/-- An entry is added as a line. Nothing else of the machine changes than its files. -/
theorem Holds.run_writeLine (h : Holds log entries e machine) (entry : Entry) :
    ∃ sink tree, machine.run (e.writeLine entry : ExceptT IoError (StateM Machine) Emitter) =
        (.ok { e with sink }, { machine with tree }) ∧
      Holds log (entries ++ [entry]) { e with sink } { machine with tree } := by
  cases log with
  | none =>
    obtain ⟨suite, runId, number, sink⟩ := e
    obtain rfl : sink = .memory (logText entries) := h
    exact ⟨_, machine.tree, run_writeLine_memory machine suite runId number entries entry, rfl⟩
  | some place =>
    obtain ⟨sink, content, hrun, hfile⟩ := Emitter.run_writeLine h entry
    exact ⟨sink, _, hrun, hfile⟩

/-- An entry keeps its timestamp when it is completed. -/
theorem timestamp_complete (e : Emitter) (entry : Entry) :
    (e.complete entry).1.timestamp = entry.timestamp := rfl

/-! ## Entries stamped one after the other -/

/-- What an emitter has written are entries that were stamped by the wall clock one after the other,
since a machine was left. -/
structure Stamped (log : Option (String × Place)) (opened : Machine) (entries : List Entry)
    (e : Emitter) (machine : Machine) : Prop where
  holds : Holds log entries e machine
  wall_eq : machine.wall = opened.wall
  stamps : ∃ readings : List Nat, readings.Pairwise (· < ·) ∧
    (∀ k ∈ readings, k < machine.wallReadings) ∧
    entries.map Entry.timestamp = readings.map fun k => (opened.wall k).timestamp

namespace Stamped

/-- The entries are stamped by the wall clock. -/
theorem stamps_entries (h : Stamped log opened entries e machine) : opened.Stamps entries := by
  obtain ⟨readings, hreadings, -, heq⟩ := h.stamps
  exact ⟨readings, hreadings, heq⟩

/-- An emitter that has written nothing. -/
theorem of_holds (h : Holds log [] e machine) (hwall : machine.wall = opened.wall) :
    Stamped log opened [] e machine :=
  ⟨h, hwall, [], .nil, List.forall_mem_nil _, rfl⟩

/-- Clocks may be read, and something written beside the files. -/
theorem congr (h : Stamped log opened entries e machine) (hsink : e'.sink = e.sink)
    (htree : machine'.tree = machine.tree) (hwall : machine'.wall = machine.wall)
    (hreadings : machine.wallReadings ≤ machine'.wallReadings) :
    Stamped log opened entries e' machine' := by
  obtain ⟨readings, hpairwise, hlt, heq⟩ := h.stamps
  exact ⟨h.holds.congr hsink htree, hwall.trans h.wall_eq, readings, hpairwise,
    fun k hk => Nat.lt_of_lt_of_le (hlt k hk) hreadings, heq⟩

/-- **A line is added** with an entry that has been stamped by the next reading. -/
theorem run_writeLine (h : Stamped log opened entries e machine) (ticks : Nat) {entry : Entry}
    (hstamp : entry.timestamp = (machine.wall machine.wallReadings).timestamp) :
    ∃ e' tree,
      (machine.readClocks (machine.wallReadings + 1) ticks).run
          (e.writeLine entry : ExceptT IoError (StateM Machine) Emitter) =
        (.ok e', { machine.readClocks (machine.wallReadings + 1) ticks with tree }) ∧
      Stamped log opened (entries ++ [entry]) e'
        { machine.readClocks (machine.wallReadings + 1) ticks with tree } := by
  obtain ⟨sink, tree, hrun, hholds⟩ := (h.holds.congr rfl rfl :
    Holds log entries e (machine.readClocks (machine.wallReadings + 1) ticks)).run_writeLine entry
  obtain ⟨readings, hpairwise, hlt, heq⟩ := h.stamps
  refine ⟨_, tree, hrun, hholds, h.wall_eq, readings ++ [machine.wallReadings], ?_, ?_, ?_⟩
  · rw [List.pairwise_append]
    refine ⟨hpairwise, List.pairwise_singleton _ _, fun j hj k hk => ?_⟩
    obtain rfl := List.mem_singleton.1 hk
    exact hlt j hj
  · intro k hk
    rcases List.mem_append.1 hk with hk | hk
    · exact Nat.lt_succ_of_lt (hlt k hk)
    · obtain rfl := List.mem_singleton.1 hk
      exact Nat.lt_succ_self _
  · rw [List.map_append, List.map_append, heq, List.map_singleton, List.map_singleton, hstamp,
      h.wall_eq]

/-- **An entry is completed and logged** with the stamp of the next reading. -/
theorem run_emitEntry (h : Stamped log opened entries e machine) (ticks : Nat) {entry : Entry}
    (hstamp : entry.timestamp = (machine.wall machine.wallReadings).timestamp) :
    ∃ logged e' tree,
      (machine.readClocks (machine.wallReadings + 1) ticks).run
          (e.emitEntry entry : ExceptT IoError (StateM Machine) Emitter) =
        (.ok e', { machine.readClocks (machine.wallReadings + 1) ticks with tree }) ∧
      Stamped log opened (entries ++ [logged]) e'
        { machine.readClocks (machine.wallReadings + 1) ticks with tree } := by
  obtain ⟨e', tree, hrun, hstamped⟩ := (h.congr (sink_complete e entry) rfl rfl
    (Nat.le_refl _)).run_writeLine ticks ((timestamp_complete e entry).trans hstamp)
  exact ⟨(e.complete entry).1, e', tree, hrun, hstamped⟩

/-- **An entry that has only a level and an event is logged** with the stamp of the next reading. -/
theorem run_emit (h : Stamped log opened entries e machine) (level : Level) (event : String) :
    ∃ logged e' tree,
      machine.run (e.emit level event : ExceptT IoError (StateM Machine) (Entry × Emitter)) =
        (.ok (logged, e'),
          { machine.readClocks (machine.wallReadings + 1) machine.tickReadings with tree }) ∧
      Stamped log opened (entries ++ [logged]) e'
        { machine.readClocks (machine.wallReadings + 1) machine.tickReadings with tree } := by
  let entry : Entry :=
    { timestamp := (machine.wall machine.wallReadings).timestamp
      traceId := e.nextTraceId.1
      level, event, suite := some e.suite }
  have hnext : Stamped log opened entries e.nextTraceId.2 machine :=
    h.congr rfl rfl rfl (Nat.le_refl _)
  obtain ⟨e', tree, hrun, hstamped⟩ :=
    hnext.run_writeLine machine.tickReadings (rfl : entry.timestamp = _)
  refine ⟨entry, e', tree, ?_, hstamped⟩
  exact (Machine.run_bind_lift (Entry.run_now machine e.nextTraceId.1 level event) _).trans
    (Machine.run_bind_of_ok hrun _)

/-- **After its last entry a log is flushed**: the file holds the lines of all entries, stamped one
after the other. -/
theorem run_finish {path : String} {place : Place}
    (h : Stamped (some (path, place)) opened entries e machine) (ticks : Nat) {entry : Entry}
    (hstamp : entry.timestamp = (machine.wall machine.wallReadings).timestamp) :
    ∃ logged after,
      (machine.readClocks (machine.wallReadings + 1) ticks).run (do
          let e ← e.emitEntry entry
          let _ ← e.flush : ExceptT IoError (StateM Machine) Unit) = (.ok (), after) ∧
      after.tree.read path = .ok (Bytes.ofText (logText (entries ++ [logged]))) ∧
      opened.Stamps (entries ++ [logged]) := by
  obtain ⟨logged, e', tree, hemit, hstamped⟩ := h.run_emitEntry ticks hstamp
  obtain ⟨hflush, hlocate⟩ := Emitter.run_flush hstamped.holds
  exact ⟨logged, _, (Machine.run_bind_of_ok hemit _).trans (Machine.run_bind_of_ok hflush _),
    read_of_locate hlocate, hstamped.stamps_entries⟩

/-! ## Fixtures -/

/-- **Running the scenarios of a fixture** goes on with one stamp for each.

**Proof sketch.** Induction on the scenarios. A scenario itself reads only the stopwatch, and the
entry on it takes the next reading of the wall clock. -/
theorem run_runCasesLogged (family : String) (cases : List Scenario)
    (h : Stamped log opened entries e machine) :
    ∃ (results : List Result) (more : List Entry) (e' : Emitter) (after : Machine),
      machine.run (Fixture.runCasesLogged family e cases) = (.ok (results, e'), after) ∧
      more.length = cases.length ∧ Stamped log opened (entries ++ more) e' after := by
  induction cases generalizing machine entries e with
  | nil =>
    refine ⟨[], [], e, machine, rfl, rfl, ?_⟩
    rwa [List.append_nil]
  | cons s rest ih =>
    obtain ⟨⟨result, attempt⟩, ticks, hrun, -⟩ :=
      s.run_of_sameStopwatch (⟨rfl, rfl⟩ : machine.SameStopwatch machine) family
    have hran : Stamped log opened entries e.nextTraceId.2 { machine with tickReadings := ticks } :=
      h.congr rfl rfl rfl (Nat.le_refl _)
    obtain ⟨logged, e', tree, hemit, hstamped⟩ := hran.run_emitEntry ticks
      (s.timestamp_record (machine.wall machine.wallReadings).timestamp e.nextTraceId.1 result
        attempt)
    obtain ⟨results, more, e'', after, hrest, hlength, hstamped⟩ := ih hstamped
    refine ⟨result :: results, logged :: more, e'', after, ?_, congrArg (· + 1) hlength, ?_⟩
    · rw [Fixture.run_runCasesLogged_of_run hrun]
      exact (Machine.run_bind_of_ok hemit _).trans (Machine.run_bind_of_ok hrest _)
    · rwa [List.append_assoc] at hstamped

/-- **Running fixtures** goes on with one stamp for each of their scenarios. -/
theorem run_runAllLogged (fixtures : List Fixture) (h : Stamped log opened entries e machine) :
    ∃ (results : List Result) (more : List Entry) (e' : Emitter) (after : Machine),
      machine.run (Fixture.runAllLogged e fixtures) = (.ok (results, e'), after) ∧
      more.length = (fixtures.flatMap Fixture.cases).length ∧
      Stamped log opened (entries ++ more) e' after := by
  induction fixtures generalizing machine entries e with
  | nil =>
    refine ⟨[], [], e, machine, rfl, rfl, ?_⟩
    rwa [List.append_nil]
  | cons fixture rest ih =>
    obtain ⟨results, more, e', between, hrun, hlength, hstamped⟩ :=
      h.run_runCasesLogged fixture.family fixture.cases
    obtain ⟨results', more', e'', after, hrest, hlength', hstamped⟩ := ih hstamped
    refine ⟨results ++ results', more ++ more', e'', after, ?_, ?_, ?_⟩
    · rw [Fixture.runAllLogged, Fixture.runLogged, Machine.run_bind_of_ok hrun]
      exact Machine.run_bind_of_ok hrest _
    · rw [List.flatMap_cons, List.length_append, List.length_append, hlength, hlength']
    · rwa [List.append_assoc] at hstamped

end Stamped

end Emitter

end CopyTrial
