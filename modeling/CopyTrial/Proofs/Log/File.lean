import CopyTrial.Proofs.Campaign.Logged
import CopyTrial.Proofs.Machine.Files

/-!
# Logs in files

An emitter that writes to a file holds some bytes back, so the file lags behind. What the file
holds and what is held back are together the lines of the entries that were logged, and nothing
else of the machine changes but its clocks.

## Main definitions

* `Machine.Advances` — between two machines clocks have been read, and one file has been written.
* `Emitter.OnFile` — what an emitter has written to a file, with what it holds back.
* `Emitter.HasLogged` — since the file was opened, acceptable entries have been logged, numbered
  from 1.

## Main results

* `Emitter.HasLogged.run_writeLine`, `Emitter.HasLogged.run_emitEntry`,
  `Emitter.HasLogged.run_emit` — each way to log an entry continues the log.
* `Emitter.HasLogged.run_finish` — the last entry is logged, and the file holds the whole log.
-/

set_option autoImplicit false

namespace CopyTrial

open FileTree

/-! ## Machines between two lines -/

/-- Between two machines clocks have been read, and the file at a place has been written. -/
def Machine.Advances (place : Place) (machine after : Machine) : Prop :=
  ∃ content wall ticks, after =
    { machine with
      tree := machine.tree.put place (.file content)
      wallReadings := wall
      tickReadings := ticks }

namespace Machine.Advances

variable {place : Place} {machine after later : Machine}

/-- A file may be written once more. -/
theorem putFile (h : Advances place machine after) (content : Bytes) :
    Advances place machine (after.putFile place content) := by
  obtain ⟨before, wall, ticks, rfl⟩ := h
  exact ⟨content, wall, ticks, by simp [Machine.putFile, put_put]⟩

/-- Clocks may be read once more. -/
theorem readClocks (h : Advances place machine after) (wall ticks : Nat) :
    Advances place machine (after.readClocks wall ticks) := by
  obtain ⟨content, wall', ticks', rfl⟩ := h
  exact ⟨content, wall, ticks, rfl⟩

/-- The shape of the tree stays if there is a file at the place. -/
theorem sameShape (h : Advances place machine after) {content : Bytes}
    (hnode : machine.tree.node? place = some (.file content)) :
    SameShape machine.tree after.tree := by
  obtain ⟨content', wall, ticks, rfl⟩ := h
  exact SameShape.put_file hnode content'

/-- What has been written beside the files stays. -/
theorem output_eq (h : Advances place machine after) :
    after.output = machine.output ∧ after.messages = machine.messages := by
  obtain ⟨content, wall, ticks, rfl⟩ := h
  exact ⟨rfl, rfl⟩

end Machine.Advances

namespace Emitter

/-! ## Writing -/

/-- An emitter writes to the file at a place: what the file holds, and what is held back before
it, is a text. -/
def OnFile (e : Emitter) (path : String) (place : Place) (text : String) (machine : Machine) :
    Prop :=
  ∃ held content, e.sink = .file path held ∧
    machine.tree.locate path = .ok (place, .file content) ∧ content ++ held = Bytes.ofText text

variable {e : Emitter} {path text : String} {place : Place} {machine : Machine}

/-- The file that a path leads to may be written. -/
theorem locate_putFile_of_locate {content : Bytes}
    (h : machine.tree.locate path = .ok (place, .file content)) (content' : Bytes) :
    (machine.putFile place content').tree.locate path = .ok (place, .file content') := by
  obtain ⟨-, -, hnode⟩ := locate_eq_ok_iff.1 h
  have hplace : place ≠ [] := by
    rintro rfl
    cases hnode
  exact locate_of_directoriesIn (directoriesIn_put (by simp [hnode]) _) h
    (node?_put_self _ hplace _)

/-- A new emitter with a file is there as soon as the file has been created. -/
theorem run_toFile (path suite runId : String) (machine : Machine) :
    machine.run (toFile path suite runId : ExceptT IoError (StateM Machine) Emitter) =
      match machine.run (do makeParents path; Host.createFile path) with
      | (.ok _, after) => (.ok ⟨suite, runId, 0, .file path []⟩, after)
      | (.error e, after) => (.error e, after) := by
  rw [toFile, ← bind_assoc, Machine.run_bind]
  rcases machine.run (do makeParents path; Host.createFile path) with ⟨_ | _, after⟩ <;> rfl

/-- What leaves the buffer is added to the file. -/
theorem run_deliver {content : Bytes}
    (h : machine.tree.locate path = .ok (place, .file content)) (bytes : Bytes) :
    machine.run (deliver path bytes : ExceptT IoError (StateM Machine) Unit) =
      (.ok (), machine.putFile place (content ++ bytes)) := by
  rw [deliver]
  split
  · next hempty =>
    obtain ⟨-, -, hnode⟩ := locate_eq_ok_iff.1 h
    have hplace : place ≠ [] := by
      rintro rfl
      cases hnode
    rw [List.isEmpty_iff.1 hempty, List.append_nil, Machine.putFile, put_self hplace hnode]
    rfl
  · exact Machine.run_appendFile h bytes

/-- **A piece of text is added to what has been written**, wherever its bytes are. -/
theorem run_write (h : e.OnFile path place text machine) (piece : String) :
    ∃ sink content, machine.run (e.write piece : ExceptT IoError (StateM Machine) Emitter) =
        (.ok { e with sink }, machine.putFile place content) ∧
      OnFile { e with sink } path place (text ++ piece) (machine.putFile place content) := by
  obtain ⟨held, content, hsink, hlocate, htext⟩ := h
  rcases hpass : passOn held (Bytes.ofText piece) with ⟨out, held'⟩
  refine ⟨.file path held', content ++ out, ?_, held', content ++ out, rfl,
    locate_putFile_of_locate hlocate _, ?_⟩
  · rw [write, hsink]
    simp only [hpass, Machine.run_bind_of_ok (run_deliver hlocate out), Machine.run_pure]
  · have hpieces := passOn_append held (Bytes.ofText piece)
    rw [hpass] at hpieces
    rw [Bytes.ofText_append, ← htext, List.append_assoc, List.append_assoc, hpieces]

/-- An entry is added as a line. -/
theorem run_writeLine {entries : List Entry} (h : e.OnFile path place (logText entries) machine)
    (entry : Entry) :
    ∃ sink content, machine.run (e.writeLine entry : ExceptT IoError (StateM Machine) Emitter) =
        (.ok { e with sink }, machine.putFile place content) ∧
      OnFile { e with sink } path place (logText (entries ++ [entry]))
        (machine.putFile place content) := by
  obtain ⟨sink, content, hline, h⟩ := run_write h entry.line
  obtain ⟨sink', content', hend, h⟩ := run_write h "\n"
  refine ⟨sink', content', ?_, ?_⟩
  · rw [writeLine, Machine.run_bind_of_ok hline, hend, Machine.putFile_putFile]
  · rw [logText_append_singleton]
    simpa using h

/-- Flushing brings the whole text to the file. -/
theorem run_flush (h : e.OnFile path place text machine) :
    machine.run (e.flush : ExceptT IoError (StateM Machine) Emitter) =
        (.ok { e with sink := .file path [] }, machine.putFile place (Bytes.ofText text)) ∧
      (machine.putFile place (Bytes.ofText text)).tree.locate path =
        .ok (place, .file (Bytes.ofText text)) := by
  obtain ⟨held, content, hsink, hlocate, htext⟩ := h
  refine ⟨?_, locate_putFile_of_locate hlocate _⟩
  rw [flush, hsink, ← htext]
  simp only [Machine.run_bind_of_ok (run_deliver hlocate held), Machine.run_pure]

/-! ## Numbered entries -/

/-- Since the file of an emitter was opened, entries have been logged. They are what the emitter
has written, each meets the rules of a log, and they are numbered from 1 on. -/
structure HasLogged (path : String) (place : Place) (suite runId : String) (opened : Machine)
    (entries : List Entry) (e : Emitter) (machine : Machine) : Prop where
  suite_eq : e.suite = suite
  runId_eq : e.runId = runId
  sequence_eq : e.sequence = entries.length
  onFile : e.OnFile path place (logText entries) machine
  traceIds : entries.map Entry.traceId = (List.range' 1 entries.length).map (traceId suite runId)
  acceptable : ∀ entry ∈ entries, entry.Acceptable
  advances : opened.Advances place machine

namespace HasLogged

variable {suite runId : String} {opened : Machine} {entries : List Entry}

/-- What is written beside the files does not matter to a log. -/
theorem print (h : HasLogged path place suite runId opened entries e machine) (output : Bytes)
    (messages : String) :
    HasLogged path place suite runId (opened.print output messages) entries e
      (machine.print output messages) := by
  obtain ⟨content, wall, ticks, rfl⟩ := h.advances
  exact { h with advances := ⟨content, wall, ticks, rfl⟩ }

/-- Clocks that are read do not matter to a log. -/
theorem readClocks (h : HasLogged path place suite runId opened entries e machine)
    (wall ticks : Nat) :
    HasLogged path place suite runId opened entries e (machine.readClocks wall ticks) :=
  { h with advances := h.advances.readClocks wall ticks }

/-- **A further line continues a log**, if it holds an acceptable entry with the next number.
Clocks may have been read in between. -/
theorem run_writeLine (h : HasLogged path place suite runId opened entries e machine)
    (wall ticks : Nat) {entry : Entry}
    (hid : entry.traceId = traceId suite runId (entries.length + 1)) (hentry : entry.Acceptable) :
    ∃ e' content,
      (machine.readClocks wall ticks).run ({ e with sequence := e.sequence + 1 }.writeLine entry :
          ExceptT IoError (StateM Machine) Emitter) =
        (.ok e', (machine.readClocks wall ticks).putFile place content) ∧
      HasLogged path place suite runId opened (entries ++ [entry]) e'
        ((machine.readClocks wall ticks).putFile place content) := by
  have hfile : OnFile { e with sequence := e.sequence + 1 } path place (logText entries)
      (machine.readClocks wall ticks) := h.onFile
  obtain ⟨sink, content, hrun, hfile⟩ := Emitter.run_writeLine hfile entry
  refine ⟨_, content, hrun, h.suite_eq, h.runId_eq, ?_, hfile, ?_, ?_, ?_⟩
  · rw [List.length_append, h.sequence_eq]
    rfl
  · rw [List.map_append, h.traceIds, List.length_append, ← List.range'_append_1, List.map_append,
      Nat.add_comm 1]
    simp [hid]
  · intro entry' hentry'
    rcases List.mem_append.1 hentry' with hold | hnew
    · exact h.acceptable entry' hold
    · obtain rfl := List.mem_singleton.1 hnew
      exact hentry
  · exact (h.advances.readClocks wall ticks).putFile content

/-- An entry without a trace id is completed and logged with the next number. -/
theorem run_emitEntry (h : HasLogged path place suite runId opened entries e machine)
    (wall ticks : Nat) {entry logged : Entry} (hempty : entry.traceId = "")
    (hlogged : logged = { entry with
      traceId := traceId suite runId (entries.length + 1)
      suite := entry.suite.or (some suite) })
    (hacceptable : logged.Acceptable) :
    ∃ e' content,
      (machine.readClocks wall ticks).run
          (e.emitEntry entry : ExceptT IoError (StateM Machine) Emitter) =
        (.ok e', (machine.readClocks wall ticks).putFile place content) ∧
      HasLogged path place suite runId opened (entries ++ [logged]) e'
        ((machine.readClocks wall ticks).putFile place content) := by
  have hcomplete : e.complete entry = (logged, { e with sequence := e.sequence + 1 }) := by
    rw [complete, if_pos hempty, hlogged, nextTraceId, h.suite_eq, h.runId_eq, h.sequence_eq]
  have hid : logged.traceId = traceId suite runId (entries.length + 1) := by rw [hlogged]
  rw [emitEntry, hcomplete]
  exact h.run_writeLine wall ticks hid hacceptable

/-- An entry that has only a level and an event is logged with the next number. -/
theorem run_emit (h : HasLogged path place suite runId opened entries e machine)
    (hid : IsTraceId (traceId suite runId (entries.length + 1))) (level : Level) (event : String) :
    ∃ (entry : Entry) (e' : Emitter) (wall : Nat) (content : Bytes),
      machine.run (e.emit level event : ExceptT IoError (StateM Machine) (Entry × Emitter)) =
        (.ok (entry, e'),
          (machine.readClocks wall machine.tickReadings).putFile place content) ∧
      HasLogged path place suite runId opened (entries ++ [entry]) e'
        ((machine.readClocks wall machine.tickReadings).putFile place content) := by
  let entry : Entry :=
    { timestamp := (machine.wall machine.wallReadings).timestamp
      traceId := traceId suite runId (entries.length + 1)
      level, event, suite := some suite }
  have hacceptable : entry.Acceptable := ⟨nofun, Entry.faults_eq_nil_of_none hid nofun rfl rfl⟩
  obtain ⟨e', content, hrun, hlogged⟩ :=
    h.run_writeLine (machine.wallReadings + 1) machine.tickReadings rfl hacceptable
  refine ⟨entry, e', machine.wallReadings + 1, content, ?_, hlogged⟩
  rw [emit, nextTraceId, h.suite_eq, h.runId_eq, h.sequence_eq,
    Machine.run_bind_lift
      (Entry.run_now machine (traceId suite runId (entries.length + 1)) level event)]
  rw [h.suite_eq, h.runId_eq, h.sequence_eq] at hrun
  exact Machine.run_bind_of_ok hrun fun e => pure (entry, e)

/-- **After its last entry a log is flushed**: the file holds the lines of all entries. -/
theorem run_finish (h : HasLogged path place suite runId opened entries e machine)
    (wall ticks : Nat) {entry logged : Entry} (hempty : entry.traceId = "")
    (hlogged : logged = { entry with
      traceId := traceId suite runId (entries.length + 1)
      suite := entry.suite.or (some suite) })
    (hacceptable : logged.Acceptable) :
    ∃ (e' : Emitter) (after : Machine), after =
        (machine.readClocks wall ticks).putFile place
          (Bytes.ofText (logText (entries ++ [logged]))) ∧
      (machine.readClocks wall ticks).run (do
          let e ← e.emitEntry entry
          let _ ← e.flush : ExceptT IoError (StateM Machine) Unit) = (.ok (), after) ∧
      after.tree.locate path = .ok (place, .file (Bytes.ofText (logText (entries ++ [logged])))) ∧
      HasLogged path place suite runId opened (entries ++ [logged]) e' after := by
  obtain ⟨e', content, hrun, hmore⟩ := h.run_emitEntry wall ticks hempty hlogged hacceptable
  obtain ⟨hflush, hlocate⟩ := Emitter.run_flush hmore.onFile
  have hafter := hmore.advances.putFile (Bytes.ofText (logText (entries ++ [logged])))
  rw [Machine.putFile_putFile] at hflush hlocate hafter
  refine ⟨{ e' with sink := .file path [] }, _, rfl, ?_, hlocate,
    { hmore with onFile := ⟨[], _, rfl, hlocate, List.append_nil _⟩, advances := hafter }⟩
  rw [Machine.run_bind_of_ok hrun, Machine.run_bind_of_ok hflush, Machine.run_pure]

end HasLogged

end Emitter

end CopyTrial
