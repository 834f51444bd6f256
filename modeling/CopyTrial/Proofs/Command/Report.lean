import CopyTrial.Command.Suite
import CopyTrial.Proofs.Artifact
import CopyTrial.Proofs.Campaign.Report
import CopyTrial.Proofs.FileTree.Extension
import CopyTrial.Proofs.Machine.Files

/-!
# Reports in files

A report is written to a file, its JSON form and an index to two others beside it. All three get
places in one directory, of which only the first two may be the same. Whether they can be written
depends on the shape of the tree alone, so it can be asked before there is anything to write.

## Main definitions

* `ReportPlaces` — the places of a report and of the files beside it.
* `touchReport`, `Machine.CanSave` — making the files of a report, which may succeed.
* `Machine.SavesTo` — the places that the files of a report get on a machine.
* `Recorded` — what an index says of a file: its path, its kind and its content.

## Main results

* `ReportPlaces.index_ne`, `ReportPlaces.json_eq_iff` — which of the three files may be the same.
* `Machine.canSave_iff` — when the files of a report can be made.
* `Report.run_save` — what writing a report leaves in the tree and in the index.
-/

set_option autoImplicit false

namespace CopyTrial

open FileTree

/-! ## Three files -/

/-- The places of a report and of the files beside it. -/
structure ReportPlaces (tree : FileTree) (path : String) (report json index : Place) : Prop where
  report_eq : tree.fileSlot path = .ok report
  json_eq : tree.fileSlot (reportJsonPath path) = .ok json
  index_eq : tree.fileSlot (reportIndexPath path) = .ok index

namespace ReportPlaces

variable {tree : FileTree} {path : String} {report json index : Place}

/-- **An index stands at a place of its own**: the stem that it shares with the other files is not
the whole of what stands before its last dot. -/
theorem index_ne (h : ReportPlaces tree path report json index) :
    index ≠ report ∧ index ≠ json := by
  obtain ⟨front, name, stem, directory, -, rfl, hname, hwith⟩ := exists_stem h.report_eq h.json_eq
  obtain ⟨-, hjson⟩ := hwith "json" (by decide)
  obtain ⟨-, hindex⟩ := hwith "artifacts.json" (by decide)
  rw [hjson json h.json_eq, hindex index h.index_eq]
  simp only [ne_eq, List.append_cancel_left_eq, List.cons.injEq, String.ofList_inj, and_true]
  exact ⟨Ne.symm (hname _ (by decide)), by decide⟩

/-- **The JSON form takes the place of a report** if the report has its extension, and only then. -/
theorem json_eq_iff (h : ReportPlaces tree path report json index) :
    json = report ↔ reportJsonPath path = path := by
  obtain ⟨front, name, stem, directory, hparted, rfl, -, hwith⟩ :=
    exists_stem h.report_eq h.json_eq
  obtain ⟨hpath, hjson⟩ := hwith "json" (by decide)
  rw [hjson json h.json_eq, reportJsonPath, hpath, ← String.toList_inj, hparted.toList_eq]
  simp only [String.toList_ofList, List.append_cancel_left_eq, List.cons.injEq, String.ofList_inj,
    and_true]

/-- The JSON form has its place also when the report has been written. -/
theorem json_eq_put (h : ReportPlaces tree path report json index) (markdown : Bytes) :
    (tree.put report (.file markdown)).fileSlot (reportJsonPath path) = .ok json :=
  (fileSlot_put_file_iff h.report_eq markdown).2 h.json_eq

/-- The index has its place also when the other two files have been written. -/
theorem index_eq_put (h : ReportPlaces tree path report json index) (markdown text : Bytes) :
    ((tree.put report (.file markdown)).put json (.file text)).fileSlot (reportIndexPath path) =
      .ok index :=
  (fileSlot_put_file_iff (h.json_eq_put markdown) text).2
    ((fileSlot_put_file_iff h.report_eq markdown).2 h.index_eq)

/-- The tree after the three files have been written. -/
def written (tree : FileTree) (report json index : Place) (markdown text list : Bytes) : FileTree :=
  ((tree.put report (.file markdown)).put json (.file text)).put index (.file list)

/-- The shape of the tree is the same whatever the three files hold. -/
theorem sameShape_written (h : ReportPlaces tree path report json index)
    (markdown text list markdown' text' list' : Bytes) :
    SameShape (written tree report json index markdown text list)
      (written tree report json index markdown' text' list') := by
  have hreport := (SameShape.refl tree).put_files (fileSlot_ne h.report_eq).1 markdown markdown'
  have hjson := hreport.put_files (fileSlot_ne h.json_eq).1 text text'
  exact hjson.put_files (fileSlot_ne h.index_eq).1 list list'

/-- **What the three files hold after they have been written.** Only the report may be lost. -/
theorem locate_written (h : ReportPlaces tree path report json index)
    (markdown text list : Bytes) :
    (written tree report json index markdown text list).locate path =
        .ok (report, .file (if report = json then text else markdown)) ∧
      (written tree report json index markdown text list).locate (reportJsonPath path) =
        .ok (json, .file text) ∧
      (written tree report json index markdown text list).locate (reportIndexPath path) =
        .ok (index, .file list) := by
  obtain ⟨hreport, hjson⟩ := h.index_ne
  have hindex := h.index_eq_put markdown text
  have htext := locate_put_self (h.json_eq_put markdown) text
  have hmarkdown := locate_put_file (locate_put_self h.report_eq markdown)
    (h.json_eq_put markdown) text
  refine ⟨?_, ?_, locate_put_self hindex list⟩
  · rw [written, locate_put_file hmarkdown hindex, if_neg (Ne.symm hreport)]
  · rw [written, locate_put_file htext hindex, if_neg (Ne.symm hjson)]

/-- **What becomes of another file** when the three files are written: it may be the same as the
index, and what has been found in it before that is lost then. -/
theorem exists_found (h : ReportPlaces tree path report json index) {other : String} {place : Place}
    {content : Bytes} (hother : tree.locate other = .ok (place, .file content))
    (markdown text : Bytes) :
    ∃ found, ((tree.put report (.file markdown)).put json (.file text)).locate other =
        .ok (place, .file found) ∧
      (place ≠ report → place ≠ json → found = content) ∧
      ∀ list, (written tree report json index markdown text list).locate other =
        .ok (place, .file (if place = index then list else found)) := by
  have hfound := locate_put_file (locate_put_file hother h.report_eq markdown)
    (h.json_eq_put markdown) text
  refine ⟨_, hfound, fun hreport hjson => ?_, fun list => ?_⟩
  · rw [if_neg hjson, if_neg hreport]
  · exact locate_put_file hfound (h.index_eq_put markdown text) list

end ReportPlaces

/-- Makes the files of a report, without contents. -/
def touchReport (path : String) : ExceptT IoError (StateM Machine) Unit := do
  makeParents path
  Host.createFile path
  Host.createFile (reportJsonPath path)
  Host.createFile (reportIndexPath path)

namespace Machine

variable {ε α β : Type}

/-- Two actions succeed if the second one does after the first one. -/
theorem exists_of_run_bind {machine : Machine} {action : ExceptT ε (StateM Machine) α}
    {next : α → ExceptT ε (StateM Machine) β} {b : β}
    (h : (machine.run (action >>= next)).1 = .ok b) :
    ∃ a after, machine.run action = (.ok a, after) ∧ (after.run (next a)).1 = .ok b := by
  rw [run_bind] at h
  rcases hrun : machine.run action with ⟨_ | a, after⟩
  · rw [hrun] at h
    cases h
  · rw [hrun] at h
    exact ⟨a, after, rfl, h⟩

/-- A file that is created has a place. -/
theorem exists_place_of_run_createFile {machine after : Machine} {path : String}
    (h : machine.run (Host.createFile path : ExceptT IoError (StateM Machine) Unit) =
      (.ok (), after)) :
    ∃ place, machine.tree.fileSlot path = .ok place ∧ after = machine.putFile place [] := by
  rw [run_createFile] at h
  cases hslot : machine.tree.fileSlot path with
  | error e => rw [hslot] at h; cases h
  | ok place => rw [hslot] at h; exact ⟨place, rfl, (Prod.mk.inj h).2.symm⟩

/-- A file that is written has a place. -/
theorem exists_place_of_run_writeFile {machine after : Machine} {path : String} {content : Bytes}
    (h : machine.run (writeFile path content : ExceptT IoError (StateM Machine) Unit) =
      (.ok (), after)) :
    ∃ place, machine.tree.fileSlot path = .ok place ∧ after = machine.putFile place content := by
  rw [run_writeFile] at h
  cases hslot : machine.tree.fileSlot path with
  | error e => rw [hslot] at h; cases h
  | ok place => rw [hslot] at h; exact ⟨place, rfl, (Prod.mk.inj h).2.symm⟩

/-- The files of a report can be made. -/
def CanSave (machine : Machine) (path : String) : Prop :=
  (machine.run (touchReport path)).1 = .ok ()

/-- Making the files of a report is a matter of the shape of the tree. -/
theorem byShape_touchReport (path : String) : ByShape (touchReport path) :=
  (OnlyMakes.makeParents path).byShape.seq
    ((ByShape.createFile path).seq ((ByShape.createFile _).seq (ByShape.createFile _)))

/-- Whether the files of a report can be made depends on the shape of the tree alone. -/
theorem CanSave.of_sameShape {machine machine' : Machine} {path : String}
    (h : machine.CanSave path) (hshape : SameShape machine.tree machine'.tree) :
    machine'.CanSave path :=
  (byShape_touchReport path machine machine' hshape).1.symm.trans h

/-- The directories above a report have been made, and its files have places then. -/
structure SavesTo (machine : Machine) (path : String) (tree : FileTree)
    (report json index : Place) : Prop where
  run_makeParents : machine.run (makeParents path : ExceptT IoError (StateM Machine) Unit) =
    (.ok (), { machine with tree })
  grows : GrowsAlong (Path.Above path) machine.tree tree
  places : ReportPlaces tree path report json index

namespace SavesTo

variable {machine : Machine} {path : String} {tree : FileTree} {report json index : Place}

/-- The files of a report that have places are made there. -/
theorem run_touchReport (h : machine.SavesTo path tree report json index) :
    machine.run (touchReport path) =
      (.ok (), { machine with tree := ReportPlaces.written tree report json index [] [] [] }) := by
  have hjson : (({ machine with tree } : Machine).putFile report []).tree.fileSlot
      (reportJsonPath path) = .ok json := h.places.json_eq_put []
  have hindex : ((({ machine with tree } : Machine).putFile report []).putFile json
      []).tree.fileSlot (reportIndexPath path) = .ok index := h.places.index_eq_put [] []
  rw [touchReport, run_bind_of_ok h.run_makeParents, run_bind, run_createFile, h.places.report_eq]
  simp only [run_bind, run_createFile, hjson, hindex]
  rfl

/-- The JSON form is written when the report has been. -/
theorem run_writeJson (h : machine.SavesTo path tree report json index) (markdown text : Bytes) :
    (({ machine with tree } : Machine).putFile report markdown).run
        (writeFile (reportJsonPath path) text) =
      (.ok (), (({ machine with tree } : Machine).putFile report markdown).putFile json text) := by
  have hslot : (({ machine with tree } : Machine).putFile report markdown).tree.fileSlot
      (reportJsonPath path) = .ok json := h.places.json_eq_put markdown
  rw [run_writeFile_of_fileSlot hslot]

/-- What becomes of another file when the files of a report are written. -/
theorem exists_found (h : machine.SavesTo path tree report json index) {other : String}
    {place : Place} {content : Bytes}
    (hother : machine.tree.locate other = .ok (place, .file content)) (markdown text : Bytes) :
    ∃ found, ((tree.put report (.file markdown)).put json (.file text)).locate other =
        .ok (place, .file found) ∧
      (place ≠ report → place ≠ json → found = content) ∧
      ∀ list, (ReportPlaces.written tree report json index markdown text list).locate other =
        .ok (place, .file (if place = index then list else found)) :=
  h.places.exists_found (locate_of_directoriesIn h.grows.directoriesIn hother
    (h.grows.node?_eq (locate_eq_ok_iff.1 hother).2.2)) markdown text

end SavesTo

/-- Places that are found one after the other are those of a report and the files beside it. -/
theorem exists_savesTo {machine between : Machine} {path : String}
    (hrun : machine.run (makeParents path : ExceptT IoError (StateM Machine) Unit) =
      (.ok (), between)) {report json index : Place} {content content' : Bytes}
    (hreport : between.tree.fileSlot path = .ok report)
    (hjson : (between.putFile report content).tree.fileSlot (reportJsonPath path) = .ok json)
    (hindex : ((between.putFile report content).putFile json content').tree.fileSlot
      (reportIndexPath path) = .ok index) :
    ∃ tree, machine.SavesTo path tree report json index := by
  obtain ⟨result, tree, hrun', hgrows⟩ := (OnlyMakes.makeParents path).grows machine
  obtain ⟨rfl, rfl⟩ := Prod.mk.inj (hrun'.symm.trans hrun)
  have hindex := (fileSlot_put_file_iff hjson content').1 hindex
  exact ⟨tree, hrun', hgrows, hreport, (fileSlot_put_file_iff hreport content).1 hjson,
    (fileSlot_put_file_iff hreport content).1 hindex⟩

/-- **When the files of a report can be made**: when there are places for them. -/
theorem canSave_iff {machine : Machine} {path : String} :
    machine.CanSave path ↔
      ∃ tree report json index, machine.SavesTo path tree report json index := by
  constructor
  · intro h
    obtain ⟨_, between, hrun, h⟩ := exists_of_run_bind h
    obtain ⟨_, after, hcreate, h⟩ := exists_of_run_bind h
    obtain ⟨report, hreport, rfl⟩ := exists_place_of_run_createFile hcreate
    obtain ⟨_, after, hcreate, h⟩ := exists_of_run_bind h
    obtain ⟨json, hjson, rfl⟩ := exists_place_of_run_createFile hcreate
    rcases hcreate : Machine.run _ (Host.createFile (reportIndexPath path)) with ⟨result, after⟩
    rw [hcreate] at h
    obtain rfl : result = .ok () := h
    obtain ⟨index, hindex, -⟩ := exists_place_of_run_createFile hcreate
    obtain ⟨tree, hsaves⟩ := exists_savesTo hrun hreport hjson hindex
    exact ⟨tree, report, json, index, hsaves⟩
  · rintro ⟨tree, report, json, index, h⟩
    rw [CanSave, h.run_touchReport]

end Machine

/-! ## Writing a report -/

/-- What an index says of a file. -/
structure Recorded where
  path : String
  kind : String
  content : Bytes

namespace Recorded

/-- The artifact of a recorded file. -/
def artifact (r : Recorded) : Artifact := .ofContent r.path r.kind r.content

/-- A path still leads to what has been recorded. -/
def Stands (tree : FileTree) (r : Recorded) : Prop := tree.read r.path = .ok r.content

end Recorded

namespace Report

variable {machine : Machine} {path : String} {log : Option String}

/-- The message that a report has been written. -/
def savedMessage (path : String) : String :=
  "Wrote report to " ++ path ++ " (" ++ reportJsonPath path ++ ", " ++ reportIndexPath path ++ ")\n"

/-- The files of which an index tells: the report, its JSON form, and the log as it was found. -/
def records (r : Report) (path : String) (log : Option String) (found : Bytes) : List Recorded :=
  [⟨path, "report_md", Bytes.ofText r.markdown⟩,
    ⟨reportJsonPath path, "report_json", Bytes.ofText r.json⟩] ++
    log.toList.map fun log => ⟨log, "log_jsonl", found⟩

/-- An index that has a place is written there, and a message tells so. -/
theorem run_writeIndex {index : Place}
    (h : machine.tree.fileSlot (reportIndexPath path) = .ok index) (i : ArtifactIndex) :
    machine.run (do
        writeFile (reportIndexPath path) (Bytes.ofText i.json)
        (Host.warn (savedMessage path) : StateM Machine Unit)) =
      (.ok (), (machine.putFile index (Bytes.ofText i.json)).print [] (savedMessage path)) := by
  rw [Machine.run_bind_of_ok (Machine.run_writeFile_of_fileSlot h _), Machine.run_lift,
    Machine.run_warn]

/-- **What writing a report does**: the three files are put at their places, one after the other.
The index tells of the first two what was written, and of the log what was found between. -/
theorem run_save (r : Report) {tree : FileTree} {report json index : Place}
    (h : machine.SavesTo path tree report json index) {found : Bytes}
    (hlog : ∀ log', log = some log' → ((tree.put report (.file (Bytes.ofText r.markdown))).put json
      (.file (Bytes.ofText r.json))).read log' = .ok found) :
    ∃ i : ArtifactIndex, i.artifacts = (r.records path log found).map Recorded.artifact ∧
      machine.run (r.save path log) =
        (.ok (), ({ machine with
          tree := ReportPlaces.written tree report json index (Bytes.ofText r.markdown)
            (Bytes.ofText r.json) (Bytes.ofText i.json)
          wallReadings := machine.wallReadings + 1 } : Machine).print [] (savedMessage path)) := by
  obtain ⟨between, hbetween⟩ : ∃ between, between =
      (({ machine with tree } : Machine).putFile report (Bytes.ofText r.markdown)).putFile json
        (Bytes.ofText r.json) := ⟨_, rfl⟩
  have hreport : ({ machine with tree } : Machine).run (writeFile path (Bytes.ofText r.markdown)) =
      (.ok (), ({ machine with tree } : Machine).putFile report (Bytes.ofText r.markdown)) :=
    Machine.run_writeFile_of_fileSlot h.places.report_eq _
  have hjson : (({ machine with tree } : Machine).putFile report (Bytes.ofText r.markdown)).run
      (writeFile (reportJsonPath path) (Bytes.ofText r.json)) = (.ok (), between) := by
    rw [hbetween]
    exact h.run_writeJson _ _
  have hid : (runId : StateM Machine String) between =
      ("pid" ++ Nat.repr between.processId, between) := rfl
  obtain ⟨stamped, hstamped⟩ : ∃ stamped, stamped =
      between.readClocks (between.wallReadings + 1) between.tickReadings := ⟨_, rfl⟩
  have hnow : (ArtifactIndex.now ("pid" ++ Nat.repr between.processId) :
      StateM Machine ArtifactIndex) between =
        (⟨1, "pid" ++ Nat.repr between.processId,
          (between.wall between.wallReadings).timestamp, []⟩, stamped) := by
    rw [hstamped]
    rfl
  have hslot : stamped.tree.fileSlot (reportIndexPath path) = .ok index := by
    rw [hstamped, hbetween]
    exact h.places.index_eq_put _ _
  have hfound : ∀ log', log = some log' → stamped.tree.read log' = .ok found := by
    rw [hstamped, hbetween]
    exact hlog
  have hafter (i : ArtifactIndex) : ({ machine with
      tree := ReportPlaces.written tree report json index (Bytes.ofText r.markdown)
        (Bytes.ofText r.json) (Bytes.ofText i.json)
      wallReadings := machine.wallReadings + 1 } : Machine) =
        stamped.putFile index (Bytes.ofText i.json) := by
    rw [hstamped, hbetween]
    rfl
  simp only [hafter]
  rw [save, Machine.run_bind_of_ok h.run_makeParents, Machine.run_bind_of_ok hreport,
    Machine.run_bind_of_ok hjson, Machine.run_bind_lift hid, Machine.run_bind_lift hnow]
  cases log with
  | none =>
    exact ⟨_, rfl, (Machine.run_bind_of_ok (Machine.run_pure _ _) _).trans (run_writeIndex hslot _)⟩
  | some log =>
    have hadd := ArtifactIndex.run_addFile_of_read (hfound log rfl)
    exact ⟨_, rfl, (Machine.run_bind_of_ok (hadd _ _) _).trans (run_writeIndex hslot _)⟩

/-- A report can only be written if its files can be made. -/
theorem canSave_of_run_save {r : Report} (h : (machine.run (r.save path log)).1 = .ok ()) :
    machine.CanSave path := by
  obtain ⟨_, between, hrun, h⟩ := Machine.exists_of_run_bind h
  obtain ⟨_, after, hwrite, h⟩ := Machine.exists_of_run_bind h
  obtain ⟨report, hreport, rfl⟩ := Machine.exists_place_of_run_writeFile hwrite
  obtain ⟨_, after, hwrite, h⟩ := Machine.exists_of_run_bind h
  obtain ⟨json, hjson, rfl⟩ := Machine.exists_place_of_run_writeFile hwrite
  obtain ⟨id, after, hid, h⟩ := Machine.exists_of_run_bind h
  obtain rfl := (Prod.mk.inj hid).2
  obtain ⟨i, stamped, hnow, h⟩ := Machine.exists_of_run_bind h
  have htree : stamped.tree = ((between.putFile report (Bytes.ofText r.markdown)).putFile json
      (Bytes.ofText r.json)).tree := by
    rw [← (Prod.mk.inj hnow).2]
  obtain ⟨content, after, hwrite⟩ : ∃ content after,
      stamped.run (writeFile (reportIndexPath path) content) = (.ok (), after) := by
    cases log with
    | none =>
      obtain ⟨_, after, hpure, h⟩ := Machine.exists_of_run_bind h
      obtain rfl : stamped = after := (Prod.mk.inj hpure).2
      obtain ⟨_, after, hwrite, -⟩ := Machine.exists_of_run_bind h
      exact ⟨_, after, hwrite⟩
    | some log =>
      obtain ⟨_, after, hadd, h⟩ := Machine.exists_of_run_bind h
      rw [ArtifactIndex.run_addFile] at hadd
      obtain rfl : stamped = after := (Prod.mk.inj hadd).2
      obtain ⟨_, after, hwrite, -⟩ := Machine.exists_of_run_bind h
      exact ⟨_, after, hwrite⟩
  obtain ⟨index, hindex, -⟩ := Machine.exists_place_of_run_writeFile hwrite
  rw [htree] at hindex
  obtain ⟨tree, hsaves⟩ := Machine.exists_savesTo hrun hreport hjson hindex
  exact Machine.canSave_iff.2 ⟨tree, report, json, index, hsaves⟩

end Report

end CopyTrial
