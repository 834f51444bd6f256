import CopyTrial.Proofs.Command.Suite

/-!
# What the index of a suite is worth

The index beside a report records files of which it tells the digest and the size. It is written
last, and the JSON form after the report. So what it says of the report is out of date if the report
has the extension of the JSON form, and what it says of the log if the log stands where the index is
to stand. In all other cases every recorded file is what the index says.

## Main definitions

* `Artifact.IsCurrent` — the path of an artifact leads to a file with its digest and size.

## Main results

* `Report.markdown_ne_json`, `ArtifactIndex.json_ne_logText` — the contents cannot be confused.
* `Command.perform_suite_index` — when the index is right, and when the report is kept.
-/

set_option autoImplicit false

namespace CopyTrial

open FileTree Emitter

/-- The path of an artifact leads to a file with the digest and the size that are told. -/
def Artifact.IsCurrent (tree : FileTree) (a : Artifact) : Prop :=
  ∃ content, tree.read a.path = .ok content ∧ a.digest = Sha256.hexDigest content ∧
    a.size = some (UInt64.ofNat content.length)

/-- The artifact of a file that stands is current. -/
theorem Recorded.isCurrent {tree : FileTree} {r : Recorded} (h : r.Stands tree) :
    r.artifact.IsCurrent tree := ⟨r.content, h, rfl, rfl⟩

/-! ## Contents that differ -/

/-- A report starts with the mark of its title, and its JSON form with a brace. -/
theorem Report.markdown_ne_json (r : Report) : r.markdown ≠ r.json := by
  intro h
  have hmarkdown : ∃ cs, r.markdown.toList = '#' :: cs := by
    have hmark : "# ".toList = ['#', ' '] := by decide
    unfold markdown heading
    simp only [String.toList_append, hmark, List.append_assoc, List.cons_append, List.cons.injEq,
      true_and, exists_eq']
  have hjson : ∃ cs, r.json.toList = '\x7b' :: cs := by
    rw [json, Codec.pretty, Json.pretty, String.toList_ofList]
    exact ⟨_, rfl⟩
  obtain ⟨cs, hcs⟩ := hmarkdown
  obtain ⟨cs', hcs'⟩ := hjson
  rw [h, hcs'] at hcs
  cases hcs

/-- A log is not laid out like an index: no line ends after its first brace. -/
theorem ArtifactIndex.json_ne_logText (i : ArtifactIndex) (entries : List Entry) :
    i.json ≠ logText entries := by
  intro h
  obtain ⟨cs, hcs⟩ : ∃ cs, i.json.toList = '\x7b' :: '\n' :: cs := by
    rw [json, Codec.pretty, Json.pretty, String.toList_ofList]
    exact ⟨_, rfl⟩
  rw [h] at hcs
  cases entries with
  | nil => cases hcs
  | cons e rest =>
    obtain ⟨inner, hline⟩ := e.line_eq
    have hend := e.not_mem_line.1
    rw [hline] at hend
    rw [logText, String.toList_ofList, List.map_cons, List.flatMap_cons, hline] at hcs
    cases inner with
    | nil => cases hcs
    | cons c inner =>
      obtain ⟨rfl, -⟩ := List.cons.inj (List.cons.inj hcs).2
      simp at hend

namespace SuiteOptions

variable {options : SuiteOptions} {variableValue : Option String} {fixtures : List Fixture}
  {machine after : Machine} {path timestamp : String} {i : ArtifactIndex} {found : Bytes}
  {report json index : Place}

/-! ## Files that are kept -/

namespace Saved

/-- **The report is kept** unless its JSON form has taken its place. -/
theorem read_report_iff
    (h : options.Saved variableValue fixtures machine after path timestamp i found report json
      index) :
    after.tree.read path =
        .ok (Bytes.ofText (reportOn timestamp (tallyOf fixtures machine)).markdown) ↔
      reportJsonPath path ≠ path := by
  rw [read_of_locate h.locate_report, ne_eq, ← h.json_eq_iff]
  constructor
  · intro hread heq
    rw [if_pos heq.symm] at hread
    exact Report.markdown_ne_json _ (Bytes.ofText_injective (Except.ok.inj hread)).symm
  · intro hne
    rw [if_neg (Ne.symm hne)]

/-- **The log is kept as it was recorded** unless the index has taken its place. -/
theorem read_log_iff
    (h : options.Saved variableValue fixtures machine after path timestamp i found report json
      index) {log : String} (hlog : chosenLog options.log variableValue = some log) :
    after.tree.read log = .ok found ↔
      after.tree.locate log ≠ after.tree.locate (reportIndexPath path) := by
  obtain ⟨place, content, hlogged, hkept, hlocate⟩ := h.logged log hlog
  rw [read_of_locate hlocate, hlocate, h.locate_index]
  by_cases hplace : place = index
  · subst hplace
    obtain ⟨hreport, hjson⟩ := h.index_ne
    obtain ⟨told, last, hcontent, -⟩ := hlogged
    have hlost : Bytes.ofText i.json ≠ found := by
      rw [hkept hreport hjson, hcontent]
      exact fun heq => i.json_ne_logText _ (Bytes.ofText_injective heq)
    simpa using hlost
  · simp [hplace]

/-- **All records stand** unless the JSON form has taken the place of the report, or the index that
of the log. -/
theorem records_stand_iff
    (h : options.Saved variableValue fixtures machine after path timestamp i found report json
      index) :
    (∀ record ∈ (reportOn timestamp (tallyOf fixtures machine)).records path
        (chosenLog options.log variableValue) found, record.Stands after.tree) ↔
      reportJsonPath path ≠ path ∧ ∀ log, chosenLog options.log variableValue = some log →
        after.tree.locate log ≠ after.tree.locate (reportIndexPath path) := by
  have hjson : after.tree.read (reportJsonPath path) =
      .ok (Bytes.ofText (reportOn timestamp (tallyOf fixtures machine)).json) :=
    read_of_locate h.locate_json
  rw [← h.read_report_iff]
  simp only [Report.records, List.mem_append, or_imp, forall_and, List.forall_mem_cons,
    List.forall_mem_map, Option.mem_toList, Recorded.Stands]
  constructor
  · rintro ⟨⟨hreport, -, -⟩, hlog⟩
    exact ⟨hreport, fun log hlog' => (h.read_log_iff hlog').1 (hlog log hlog')⟩
  · rintro ⟨hreport, hlog⟩
    exact ⟨⟨hreport, hjson, List.forall_mem_nil _⟩,
      fun log hlog' => (h.read_log_iff hlog').2 (hlog log hlog')⟩

end Saved

end SuiteOptions

namespace Command

open SuiteOptions

/-- **When the index of a suite is right.** If there is no tooling error, the index can be read
where it belongs, and records the report, its JSON form and the log. The report is kept unless its
JSON form has the same path. All that is recorded is there to be read unless the report is not kept,
or the log is the same file as the index; and then every digest and every size is right. -/
theorem perform_suite_index {options : SuiteOptions} {variableValue : Option String}
    {machine after : Machine} {path : String} {code : UInt8} (hreport : options.report = some path)
    (hperform : ((suite options).perform variableValue : StateM Machine UInt8) machine =
      (code, after))
    (hcode : code ≠ 2) :
    ∃ (fixtures : List Fixture) (timestamp : String) (report : Report) (i : ArtifactIndex)
      (records : List Recorded) (found : Bytes),
      (machine.run (suiteFixtures options.fixture)).1 = .ok fixtures ∧
      report = reportOn timestamp (tallyOf fixtures machine) ∧
      after.tree.read (reportIndexPath path) = .ok (Bytes.ofText i.json) ∧
      ArtifactIndex.codec.parse i.json = .ok i ∧
      i.artifacts = records.map Recorded.artifact ∧
      records = report.records path (chosenLog options.log variableValue) found ∧
      (after.tree.read path = .ok (Bytes.ofText report.markdown) ↔ reportJsonPath path ≠ path) ∧
      ((∀ record ∈ records, record.Stands after.tree) ↔
        reportJsonPath path ≠ path ∧ ∀ log, chosenLog options.log variableValue = some log →
          after.tree.locate log ≠ after.tree.locate (reportIndexPath path)) ∧
      ((∀ record ∈ records, record.Stands after.tree) →
        ∀ a ∈ i.artifacts, a.IsCurrent after.tree) := by
  have hcode' : (((suite options).perform variableValue : StateM Machine UInt8) machine).1 ≠ 2 := by
    rwa [hperform]
  obtain ⟨fixtures, prepared, hload, htouch⟩ := exists_touch_of_perform_suite hcode'
  obtain ⟨saved, timestamp, i, found, report, json, index, hsaved, -, hrun⟩ :=
    perform_suite_of_report hload hreport htouch
  obtain ⟨-, rfl⟩ := Prod.mk.inj (hperform.symm.trans hrun)
  refine ⟨fixtures, timestamp, _, i, _, found, ?_, rfl, read_of_locate hsaved.locate_index,
    i.parse_json, hsaved.artifacts_eq, rfl, hsaved.read_report_iff, hsaved.records_stand_iff, ?_⟩
  · rw [run_suiteFixtures, hload]
  · intro hstand a ha
    rw [hsaved.artifacts_eq] at ha
    obtain ⟨record, hrecord, rfl⟩ := List.mem_map.1 ha
    exact Recorded.isCurrent (hstand record hrecord)

/-- A machine with a fixture without scenarios. -/
def emptyFixture : Machine where
  tree := ⟨[(["f.json"],
    .file (Bytes.ofText "\x7b\"version\":\"v1\",\"family\":\"m\",\"cases\":[]\x7d"))]⟩

/-- The options of a suite over this fixture, with a report. -/
def emptySuite (report : String) : SuiteOptions where
  fixture := some "f.json"
  report := some report
  timestamp := some "now"

/-- The fixture without scenarios can be loaded. -/
theorem fixturesIn_emptyFixture (report : String) :
    fixturesIn emptyFixture.tree (emptySuite report).fixture = .ok [⟨"v1", "m", []⟩] := by
  have hload : (fixturesIn emptyFixture.tree (some "f.json")).toOption =
      some [⟨"v1", "m", []⟩] := by decide +kernel
  rw [emptySuite]
  cases h : fixturesIn emptyFixture.tree (some "f.json") with
  | error failure => rw [h] at hload; cases hload
  | ok fixtures => rw [h] at hload; rw [Option.some.inj hload]

/-- The theorem on a report with an extension of its own: the report is kept, and the index is
right. -/
theorem perform_suite_index_markdown :
    ∃ after i report, ((suite (emptySuite "r.md")).perform none : StateM Machine UInt8)
        emptyFixture = (0, after) ∧
      after.tree.read "r.artifacts.json" = .ok (Bytes.ofText (ArtifactIndex.json i)) ∧
      after.tree.read "r.md" = .ok (Bytes.ofText (Report.markdown report)) ∧
      ∀ a ∈ i.artifacts, a.IsCurrent after.tree := by
  have htouch : (emptyFixture.run ((emptySuite "r.md").touch none)).1 = .ok () := by decide +kernel
  have hjson : reportJsonPath "r.md" ≠ "r.md" := by decide +kernel
  have hindex : reportIndexPath "r.md" = "r.artifacts.json" := by decide +kernel
  have hpassed : (tallyOf [⟨"v1", "m", []⟩] emptyFixture).allPassed = true := by decide +kernel
  obtain ⟨after, -, -, -, -, -, -, -, -, hperform⟩ := perform_suite_of_report
    (fixturesIn_emptyFixture "r.md") rfl (Machine.run_eq_of_fst htouch)
  rw [hpassed, if_pos rfl] at hperform
  obtain ⟨-, -, report, i, records, -, -, -, hread, -, -, -, hkept, hstand, hcurrent⟩ :=
    perform_suite_index rfl hperform (by decide)
  rw [hindex] at hread
  exact ⟨_, i, report, hperform, hread, hkept.2 hjson,
    hcurrent (hstand.2 ⟨hjson, nofun⟩)⟩

/-- **An index that is wrong**: a report with the extension of the JSON form is lost, and the index
still tells its size. -/
theorem exists_not_isCurrent :
    ∃ after i, ((suite (emptySuite "r.json")).perform none : StateM Machine UInt8)
        emptyFixture = (0, after) ∧
      after.tree.read "r.artifacts.json" = .ok (Bytes.ofText (ArtifactIndex.json i)) ∧
      after.tree.read "r.json" ≠
        .ok (Bytes.ofText (reportOn "now" (tallyOf [⟨"v1", "m", []⟩] emptyFixture)).markdown) ∧
      ∃ a ∈ i.artifacts, a.path = "r.json" ∧ ¬ a.IsCurrent after.tree := by
  have htouch : (emptyFixture.run ((emptySuite "r.json").touch none)).1 = .ok () := by
    decide +kernel
  have hjson : reportJsonPath "r.json" = "r.json" := by decide +kernel
  have hindex : reportIndexPath "r.json" = "r.artifacts.json" := by decide +kernel
  have hpassed : (tallyOf [⟨"v1", "m", []⟩] emptyFixture).allPassed = true := by decide +kernel
  have htally : tallyOf [⟨"v1", "m", []⟩] emptyFixture = Tally.ofResults [] := rfl
  have hsize : UInt64.ofNat (Bytes.ofText (reportOn "now" (Tally.ofResults [])).markdown).length ≠
      UInt64.ofNat (Bytes.ofText (reportOn "now" (Tally.ofResults [])).json).length := by
    decide +kernel
  obtain ⟨saved, timestamp, i, found, report, json, index, hsaved, -, hperform⟩ :=
    perform_suite_of_report (fixturesIn_emptyFixture "r.json") rfl (Machine.run_eq_of_fst htouch)
  rw [hpassed, if_pos rfl] at hperform
  obtain rfl := hsaved.timestamp_eq "now" rfl
  have hread := read_of_locate hsaved.locate_json
  have hlist := read_of_locate hsaved.locate_index
  have hartifacts := hsaved.artifacts_eq
  rw [hjson] at hread
  rw [hindex] at hlist
  refine ⟨_, i, hperform, hlist, fun hkept => hsaved.read_report_iff.1 hkept hjson, ?_⟩
  refine ⟨.ofContent "r.json" "report_md" (Bytes.ofText
    (reportOn "now" (tallyOf [⟨"v1", "m", []⟩] emptyFixture)).markdown), ?_, rfl, ?_⟩
  · rw [hartifacts]
    exact List.mem_map_of_mem List.mem_cons_self
  · rintro ⟨content, hcontent, -, hlength⟩
    obtain rfl := Except.ok.inj (hread.symm.trans hcontent)
    rw [htally] at hlength
    exact hsize (Option.some.inj hlength)

end Command

end CopyTrial
