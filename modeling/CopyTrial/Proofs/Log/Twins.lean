import CopyTrial.Proofs.Log.File
import CopyTrial.Proofs.Log.History

/-!
# Logs in files and in memory

An emitter that writes to a file and one that keeps its log in memory do the same if they are asked
the same under the same wall clock: they answer the same, and what the first one has written, with
what it holds back, is what the second one keeps. So the file always holds the start of the text in
memory, and all of it once nothing is held back.

## Main definitions

* `Machine.SameWallClock` — the wall clocks of two machines show the same from now on.
* `Emitter.Operation`, `Emitter.operateAll` — a request or a flush, and a sequence of them.
* `Emitter.Twins` — an emitter with a file, and one that keeps in memory what the first has written.

## Main results

* `Emitter.Twins.run_operate`, `Emitter.Twins.run_operateAll` — what twins are asked, they do alike.
* `Emitter.Twins.of_canCreate` — a new emitter with a file, and one in memory, are twins.
* `Emitter.file_agrees_with_memory` — the file and the text in memory over a whole history.
-/

set_option autoImplicit false

namespace CopyTrial

open FileTree

/-- The wall clocks of two machines show the same from now on. -/
def Machine.SameWallClock (machine twin : Machine) : Prop :=
  machine.wall = twin.wall ∧ machine.wallReadings = twin.wallReadings

namespace Emitter

/-! ## Operations -/

/-- What is done with an emitter. -/
inductive Operation where
  | ask (request : Request)
  | flush

section

variable {m : Type → Type} [Monad m] [Host m]

/-- Does what is asked, or flushes, which has no answer. -/
def operate (e : Emitter) : Operation → ExceptT IoError m (Option Reply × Emitter)
  | .ask request => do
    let (reply, e) ← e.perform request
    pure (some reply, e)
  | .flush => do
    let e ← e.flush
    pure (none, e)

/-- Operates an emitter, one operation after the other. -/
def operateAll (e : Emitter) : List Operation → ExceptT IoError m (List (Option Reply) × Emitter)
  | [] => pure ([], e)
  | operation :: rest => do
    let (reply, e) ← e.operate operation
    let (replies, e) ← operateAll e rest
    pure (reply :: replies, e)

end

/-! ## Twins -/

/-- The file holds the start of a text, and all of it if nothing is held back. -/
theorem OnFile.read {e : Emitter} {path text : String} {place : Place} {machine : Machine}
    (h : e.OnFile path place text machine) :
    ∃ content, machine.tree.read path = .ok content ∧ content <+: Bytes.ofText text ∧
      (e.sink = .file path [] → content = Bytes.ofText text) := by
  obtain ⟨held, content, hsink, hlocate, htext⟩ := h
  refine ⟨content, ?_, ⟨held, htext⟩, fun hnil => ?_⟩
  · rw [FileTree.read, hlocate]
    rfl
  · obtain rfl := (LogSink.file.inj (hsink.symm.trans hnil)).2
    rw [← htext, List.append_nil]

/-- The emitter that keeps a text in memory instead of its log. -/
def inMemory (e : Emitter) (text : String) : Emitter := { e with sink := .memory text }

/-- An emitter has a twin that keeps in memory what the emitter has written to a file, with what it
holds back. The wall clocks of their machines show the same. -/
structure Twins (path : String) (place : Place) (text : String) (e : Emitter)
    (machine twin : Machine) : Prop where
  onFile : e.OnFile path place text machine
  clock : machine.SameWallClock twin

/-- The twin of an emitter completes an entry as the emitter does. -/
theorem complete_inMemory (e : Emitter) (text : String) (entry : Entry) :
    (e.inMemory text).complete entry =
      ((e.complete entry).1, (e.complete entry).2.inMemory text) := by
  rw [complete, complete]
  by_cases hid : entry.traceId = ""
  · rw [if_pos hid, if_pos hid]
    rfl
  · rw [if_neg hid, if_neg hid]
    rfl

/-- An emitter completes an entry without writing. -/
theorem sink_complete (e : Emitter) (entry : Entry) : (e.complete entry).2.sink = e.sink := by
  rw [complete]
  by_cases hid : entry.traceId = ""
  · rw [if_pos hid]
    rfl
  · rw [if_neg hid]

namespace Twins

variable {path text : String} {place : Place} {e e' : Emitter} {machine twin : Machine}

/-- The numbering of an emitter does not matter to its log. -/
theorem of_sink_eq (h : Twins path place text e machine twin) (hsink : e'.sink = e.sink) :
    Twins path place text e' machine twin := by
  obtain ⟨held, content, hfile, hrest⟩ := h.onFile
  exact { h with onFile := ⟨held, content, hsink.trans hfile, hrest⟩ }

/-- A reading of both wall clocks. -/
theorem readClocks (h : Twins path place text e machine twin) :
    Twins path place text e (machine.readClocks (machine.wallReadings + 1) machine.tickReadings)
      (twin.readClocks (twin.wallReadings + 1) twin.tickReadings) :=
  { h with clock := ⟨h.clock.1, congrArg (· + 1) h.clock.2⟩ }

/-! ### One operation -/

/-- A piece of text is written to a file or behind its buffer, and to memory. -/
theorem run_write (h : Twins path place text e machine twin) (piece : String) :
    ∃ e' after, machine.run (e.write piece : ExceptT IoError (StateM Machine) Emitter) =
        (.ok e', after) ∧
      twin.run ((e.inMemory text).write piece : ExceptT IoError (StateM Machine) Emitter) =
        (.ok (e'.inMemory (text ++ piece)), twin) ∧
      Twins path place (text ++ piece) e' after twin := by
  obtain ⟨sink, content, hrun, hfile⟩ := Emitter.run_write h.onFile piece
  exact ⟨_, _, hrun, rfl, ⟨hfile, h.clock⟩⟩

/-- An entry is written as a line. -/
theorem run_writeLine (h : Twins path place text e machine twin) (entry : Entry) :
    ∃ e' text' after, machine.run (e.writeLine entry : ExceptT IoError (StateM Machine) Emitter) =
        (.ok e', after) ∧
      twin.run ((e.inMemory text).writeLine entry : ExceptT IoError (StateM Machine) Emitter) =
        (.ok (e'.inMemory text'), twin) ∧
      Twins path place text' e' after twin := by
  obtain ⟨between, machine', hline, hline', h⟩ := h.run_write entry.line
  obtain ⟨e', after, hend, hend', h⟩ := h.run_write "\n"
  refine ⟨e', _, after, ?_, ?_, h⟩
  · rw [writeLine, Machine.run_bind_of_ok hline, hend]
  · rw [writeLine, Machine.run_bind_of_ok hline', hend']

/-- An entry is completed alike and written. -/
theorem run_emitEntry (h : Twins path place text e machine twin) (entry : Entry) :
    ∃ e' text' after, machine.run (e.emitEntry entry : ExceptT IoError (StateM Machine) Emitter) =
        (.ok e', after) ∧
      twin.run ((e.inMemory text).emitEntry entry : ExceptT IoError (StateM Machine) Emitter) =
        (.ok (e'.inMemory text'), twin) ∧
      Twins path place text' e' after twin := by
  rw [emitEntry, emitEntry, complete_inMemory]
  exact (h.of_sink_eq (sink_complete e entry)).run_writeLine (e.complete entry).1

/-- An entry that has only a level and an event is made at the same moment, given the same id, and
written. -/
theorem run_emit (h : Twins path place text e machine twin) (level : Level) (event : String) :
    ∃ entry e' text' after after',
      machine.run (e.emit level event : ExceptT IoError (StateM Machine) (Entry × Emitter)) =
        (.ok (entry, e'), after) ∧
      twin.run ((e.inMemory text).emit level event :
          ExceptT IoError (StateM Machine) (Entry × Emitter)) =
        (.ok (entry, e'.inMemory text'), after') ∧
      Twins path place text' e' after after' := by
  let entry : Entry :=
    { timestamp := (machine.wall machine.wallReadings).timestamp
      traceId := e.nextTraceId.1
      level, event, suite := some e.suite }
  have hnow := Entry.run_now machine e.nextTraceId.1 level event
  have hnow' := Entry.run_now twin e.nextTraceId.1 level event
  rw [← h.clock.1, ← h.clock.2] at hnow'
  have hnext : Twins path place text e.nextTraceId.2
      (machine.readClocks (machine.wallReadings + 1) machine.tickReadings)
      (twin.readClocks (machine.wallReadings + 1) twin.tickReadings) := by
    have hread := h.readClocks
    rw [← h.clock.2] at hread
    exact hread.of_sink_eq rfl
  obtain ⟨e', text', after, hline, hline', hlast⟩ := hnext.run_writeLine entry
  refine ⟨entry, e', text', after, _, ?_, ?_, hlast⟩
  · exact (Machine.run_bind_lift hnow _).trans (Machine.run_bind_of_ok hline _)
  · exact (Machine.run_bind_lift hnow' _).trans (Machine.run_bind_of_ok hline' _)

/-- **What an emitter is asked, its twin does alike.** -/
theorem run_perform (h : Twins path place text e machine twin) (request : Request) :
    ∃ reply e' text' after after',
      machine.run (e.perform request) = (.ok (reply, e'), after) ∧
      twin.run ((e.inMemory text).perform request) = (.ok (reply, e'.inMemory text'), after') ∧
      Twins path place text' e' after after' := by
  cases request with
  | nextTraceId =>
    exact ⟨.traceId e.nextTraceId.1, e.nextTraceId.2, text, machine, twin, rfl, rfl,
      h.of_sink_eq rfl⟩
  | emit level event =>
    obtain ⟨entry, e', text', after, after', hrun, hrun', h⟩ := h.run_emit level event
    exact ⟨.written entry, e', text', after, after', Machine.run_bind_of_ok hrun _,
      Machine.run_bind_of_ok hrun' _, h⟩
  | emitEntry entry =>
    obtain ⟨e', text', after, hrun, hrun', h⟩ := h.run_emitEntry entry
    exact ⟨.done, e', text', after, twin, Machine.run_bind_of_ok hrun _,
      Machine.run_bind_of_ok hrun' _, h⟩

/-- Flushing brings the whole text to the file, and the twin has nothing to do. -/
theorem run_flush (h : Twins path place text e machine twin) :
    ∃ after, machine.run (e.flush : ExceptT IoError (StateM Machine) Emitter) =
        (.ok { e with sink := .file path [] }, after) ∧
      twin.run ((e.inMemory text).flush : ExceptT IoError (StateM Machine) Emitter) =
        (.ok (e.inMemory text), twin) ∧
      Twins path place text { e with sink := .file path [] } after twin := by
  obtain ⟨hrun, hlocate⟩ := Emitter.run_flush h.onFile
  exact ⟨_, hrun, rfl, ⟨[], _, rfl, hlocate, List.append_nil _⟩, h.clock⟩

/-- **One operation on twins**: they answer the same and remain twins, and nothing is held back
after a flush. -/
theorem run_operate (h : Twins path place text e machine twin) (operation : Operation) :
    ∃ reply e' text' after after',
      machine.run (e.operate operation) = (.ok (reply, e'), after) ∧
      twin.run ((e.inMemory text).operate operation) =
        (.ok (reply, e'.inMemory text'), after') ∧
      Twins path place text' e' after after' ∧
      (operation = .flush → e'.sink = .file path []) := by
  cases operation with
  | ask request =>
    obtain ⟨reply, e', text', after, after', hrun, hrun', h⟩ := h.run_perform request
    exact ⟨some reply, e', text', after, after', Machine.run_bind_of_ok hrun _,
      Machine.run_bind_of_ok hrun' _, h, nofun⟩
  | flush =>
    obtain ⟨after, hrun, hrun', h⟩ := h.run_flush
    exact ⟨none, _, text, after, twin, Machine.run_bind_of_ok hrun _,
      Machine.run_bind_of_ok hrun' _, h, fun _ => rfl⟩

/-! ### Many operations -/

/-- **A sequence of operations on twins**: they answer the same all along and remain twins, and
nothing is held back if the last operation was a flush.

**Proof sketch.** Induction on the operations: the first one leaves twins to the others. The last
operation is the first one only if there are no others. -/
theorem run_operateAll (h : Twins path place text e machine twin) (operations : List Operation) :
    ∃ replies e' text' after after',
      machine.run (e.operateAll operations) = (.ok (replies, e'), after) ∧
      twin.run ((e.inMemory text).operateAll operations) =
        (.ok (replies, e'.inMemory text'), after') ∧
      Twins path place text' e' after after' ∧
      (operations.getLast? = some .flush → e'.sink = .file path []) := by
  induction operations generalizing text e machine twin with
  | nil => exact ⟨[], e, text, machine, twin, rfl, rfl, h, nofun⟩
  | cons operation rest ih =>
    obtain ⟨reply, e₁, text₁, machine₁, twin₁, hstep, hstep', h, hflushed⟩ :=
      h.run_operate operation
    obtain ⟨replies, e', text', after, after', hrest, hrest', h, hlast⟩ := ih h
    refine ⟨reply :: replies, e', text', after, after', ?_, ?_, h, fun hflush => ?_⟩
    · rw [operateAll, Machine.run_bind_of_ok hstep, Machine.run_bind_of_ok hrest, Machine.run_pure]
    · rw [operateAll, Machine.run_bind_of_ok hstep', Machine.run_bind_of_ok hrest',
        Machine.run_pure]
    · cases rest with
      | nil =>
        cases hrest
        exact hflushed (Option.some.inj hflush)
      | cons next rest =>
        rw [List.getLast?_cons_cons] at hflush
        exact hlast hflush

/-- After an emitter has been closed the file holds the whole text. -/
theorem read_close (h : Twins path place text e machine twin) :
    ((e.close : StateM Machine Unit) machine).2.tree.read path = .ok (Bytes.ofText text) := by
  obtain ⟨after, hrun, -, hafter⟩ := h.run_flush
  have hflush : (e.flush : ExceptT IoError (StateM Machine) Emitter).run machine =
      (.ok { e with sink := .file path [] }, after) := hrun
  have hclose : (e.close : StateM Machine Unit) machine = ((), after) := by
    rw [close]
    simp only [bind, StateT.bind, hflush]
    rfl
  obtain ⟨content, hread, -, hall⟩ := hafter.onFile.read
  rw [hclose, hread, hall rfl]

end Twins

/-- **A new emitter with a file is the twin of a new one in memory.** The file is empty, whatever it
held before. -/
theorem Twins.of_canCreate {path : String} {machine twin : Machine} (h : machine.CanCreate path)
    (hclock : machine.SameWallClock twin) (suite runId : String) :
    ∃ e place after,
      machine.run (toFile path suite runId : ExceptT IoError (StateM Machine) Emitter) =
        (.ok e, after) ∧
      e.inMemory "" = ofMemory suite runId ∧ Twins path place "" e after twin := by
  obtain ⟨tree, place, -, hslot, hrun⟩ := Machine.run_create h
  refine ⟨⟨suite, runId, 0, .file path []⟩, place,
    ({ machine with tree } : Machine).putFile place [], ?_, rfl, ⟨[], [], rfl, ?_, rfl⟩, hclock⟩
  · rw [run_toFile, hrun]
  · exact Machine.locate_putFile hslot []

/-- **A log in a file agrees with a log in memory.** A file can be created, whatever stands there
before, and two emitters are made for one suite and one run, the one with this file and the other
with its log in memory. If the wall clock shows them the same, they answer the same to all that they
are asked. Then the file holds the start of the text in memory, and nothing else; it holds the whole
text if the emitter has just been flushed, and after it has been closed. -/
theorem file_agrees_with_memory {path : String} {machine twin : Machine}
    (h : machine.CanCreate path) (hclock : machine.SameWallClock twin) (suite runId : String)
    (operations : List Operation) :
    ∃ replies e e' text after after',
      machine.run (do
          let e ← toFile path suite runId
          e.operateAll operations) = (.ok (replies, e), after) ∧
      twin.run ((ofMemory suite runId).operateAll operations) = (.ok (replies, e'), after') ∧
      e'.buffered = some text ∧
      (∃ content, after.tree.read path = .ok content ∧ content <+: Bytes.ofText text ∧
        (operations.getLast? = some .flush → content = Bytes.ofText text)) ∧
      ((e.close : StateM Machine Unit) after).2.tree.read path = .ok (Bytes.ofText text) := by
  obtain ⟨e₀, place, opened, hopen, hmemory, h⟩ := Twins.of_canCreate h hclock suite runId
  obtain ⟨replies, e, text, after, after', hrun, hrun', h, hlast⟩ := h.run_operateAll operations
  obtain ⟨content, hread, hprefix, hall⟩ := h.onFile.read
  rw [hmemory] at hrun'
  refine ⟨replies, e, e.inMemory text, text, after, after', ?_, hrun', rfl,
    ⟨content, hread, hprefix, fun hflush => hall (hlast hflush)⟩, h.read_close⟩
  rw [Machine.run_bind_of_ok hopen, hrun]

/-- A machine with a file that is to become a log. -/
def withOldLog : Machine := { tree := ⟨[(["l"], .file (Bytes.ofText "old"))]⟩ }

/-- A line that is longer than the buffer, between two that are not, and then a flush. -/
def longLine : List Operation :=
  [.ask (.emit .info "start"), .ask (.emit .warn (String.ofList (List.replicate bufferSize 'x'))),
    .ask .nextTraceId, .ask (.emit .info "end"), .flush]

/-- The theorem on a file that holds something else before, and on a line that is longer than the
buffer. -/
theorem file_agrees_with_memory_longLine :
    withOldLog.tree.read "l" = .ok (Bytes.ofText "old") ∧
    ∃ replies e e' text after after',
      withOldLog.run (do
          let e ← toFile "l" "s" "r"
          e.operateAll longLine) = (.ok (replies, e), after) ∧
      ({} : Machine).run ((ofMemory "s" "r").operateAll longLine) = (.ok (replies, e'), after') ∧
      e'.buffered = some text ∧ after.tree.read "l" = .ok (Bytes.ofText text) := by
  have hcreate : withOldLog.CanCreate "l" := by rfl
  obtain ⟨replies, e, e', text, after, after', hrun, hrun', htext, hfile, -⟩ :=
    file_agrees_with_memory hcreate (⟨rfl, rfl⟩ : withOldLog.SameWallClock {}) "s" "r" longLine
  obtain ⟨content, hread, -, hflushed⟩ := hfile
  rw [hflushed rfl] at hread
  exact ⟨by rfl, replies, e, e', text, after, after', hrun, hrun', htext, hread⟩

end Emitter

end CopyTrial
