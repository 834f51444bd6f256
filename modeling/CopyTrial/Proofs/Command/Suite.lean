import CopyTrial.Proofs.Campaign.LogFile
import CopyTrial.Proofs.Command.Refusal
import CopyTrial.Proofs.Command.Report

/-!
# Suites of fixtures

A suite goes through stages: its fixtures are loaded, its log is opened, its fixtures are run, the
results are told in messages and in the log, and the report is written. What the last stages find
differs from what the first ones left only in what files hold, so whether all of them succeed can
be asked before anything is run.

## Main definitions

* `SuiteOptions.touch` — making the files that a suite is going to write, without contents.
* `Tally.LoggedIn` — a log tells a tally.
* `SuiteOptions.Told` — the results have been told, and nothing but the report is missing.
* `SuiteOptions.Saved` — the report has been written, and what the files hold then.

## Main results

* `SuiteOptions.run_of_stages`, `SuiteOptions.run_until_told` — the stages before the report.
* `Command.perform_suite_of_report`, `Command.perform_suite_of_no_report` — how a suite ends.
* `Command.exists_touch_of_perform_suite` — only tooling errors keep a suite from that.
-/

set_option autoImplicit false

namespace CopyTrial

open FileTree Emitter

/-! ## Messages and the last entry -/

/-- Messages are written one after the other. -/
theorem run_warnAll (machine : Machine) (messages : List String) :
    (warnAll messages : StateM Machine Unit) machine =
      ((), machine.print [] (String.join messages)) := by
  induction messages generalizing machine with
  | nil =>
    rw [String.join_nil, Machine.print_nil]
    rfl
  | cons message rest ih =>
    rw [warnAll]
    simp only [bind, StateT.bind, Machine.run_warn, ih]
    simp [Machine.print, String.append_assoc]

/-- The details of a tally survive being written. -/
theorem Tally.loggable_of_details (t : Tally) {entry : Entry}
    (h : entry.details = some t.details) : entry.Loggable := by
  have hplain (w : UInt64) : (Json.integer w.toNat).Plain :=
    .integer (Json.inWordRange_of_lt w.toNat_lt)
  intro v hv
  obtain rfl := Option.some.inj (h.symm.trans hv)
  apply survives_detailsOf
  simp only [List.forall_mem_cons]
  exact ⟨⟨hplain _, Nat.zero_le _⟩, ⟨hplain _, Nat.zero_le _⟩, ⟨hplain _, Nat.zero_le _⟩, by simp⟩

/-- The last entry of a log tells a tally, and needs a trace id. -/
theorem Tally.exists_entry_eq (t : Tally) (report : Option String) (machine : Machine) :
    ∃ entry, (t.entry report : StateM Machine Entry) machine =
        (entry, machine.readClocks (machine.wallReadings + 1) machine.tickReadings) ∧
      entry.traceId = "" ∧ entry.event = "suite_complete" ∧ entry.details = some t.details ∧
      entry.outcome = none ∧ entry.exitCode = none ∧ entry.divergence = none :=
  ⟨_, rfl, rfl, rfl, rfl, rfl, rfl, rfl⟩

/-- The last entry of the log of a suite is acceptable. -/
theorem Tally.acceptable_of_details (t : Tally) {entry : Entry} (hid : IsTraceId entry.traceId)
    (hdetails : entry.details = some t.details) (houtcome : entry.outcome = none)
    (hexit : entry.exitCode = none) (hdivergence : entry.divergence = none) : entry.Acceptable := by
  refine ⟨t.loggable_of_details hdetails, Entry.faults_eq_nil_of_none hid ?_ hexit hdivergence⟩
  rw [houtcome]
  nofun

/-- A log tells a tally: it has a line for each result and one more with the counts, which are
accepted and numbered from 1. -/
def Tally.LoggedIn (t : Tally) (runId : String) (content : Bytes) : Prop :=
  ∃ (told : List Entry) (last : Entry),
    content = Bytes.ofText (logText (told ++ [last])) ∧
    Text.lines (logText (told ++ [last])) = (told ++ [last]).map Entry.line ∧
    validateText (logText (told ++ [last])) = (t.results.length + 1, []) ∧
    (∀ entry ∈ told ++ [last], validateLine entry.line = .ok entry) ∧
    (told ++ [last]).map Entry.traceId =
      (List.range' 1 (t.results.length + 1)).map (traceId suiteName runId) ∧
    last.event = "suite_complete" ∧ last.details = some t.details

/-- A log with an entry for each result and a last one on the tally tells the tally. -/
theorem Tally.loggedIn_of_hasLogged (t : Tally) {path runId : String} {place : Place}
    {opened machine : Machine} {told : List Entry} {last : Entry} {e : Emitter}
    (h : e.HasLogged path place suiteName runId opened (told ++ [last]) machine)
    (hlength : told.length = t.results.length) (hevent : last.event = "suite_complete")
    (hdetails : last.details = some t.details) :
    t.LoggedIn runId (Bytes.ofText (logText (told ++ [last]))) := by
  have hcount : (told ++ [last]).length = t.results.length + 1 := by simp [hlength]
  refine ⟨told, last, rfl, lines_logText _, ?_, fun entry hentry =>
    (h.acceptable entry hentry).validateLine_eq, ?_, hevent, hdetails⟩
  · rw [validateText_logText_of_acceptable h.acceptable, hcount]
  · rw [h.traceIds, hcount]

/-- **The log of a suite is completed** by an entry with the counts, and then it tells the tally. -/
theorem Tally.exists_finish (t : Tally) (report : Option String) {path runId : String}
    {place : Place} {opened machine : Machine} {told : List Entry} {e : Emitter}
    (h : e.HasLogged path place suiteName runId opened told machine)
    (hids : ∀ n, IsTraceId (traceId suiteName runId n)) (hlength : told.length = t.results.length) :
    ∃ (entry : Entry) (stamped after : Machine) (content : Bytes),
      (t.entry report : StateM Machine Entry) machine = (entry, stamped) ∧
      stamped.run (do
          let e ← e.emitEntry entry
          let _ ← e.flush : ExceptT IoError (StateM Machine) Unit) = (.ok (), after) ∧
      opened.Advances place after ∧ after.tree.locate path = .ok (place, .file content) ∧
      t.LoggedIn runId content := by
  obtain ⟨entry, hentry, hempty, hevent, hdetails, houtcome, hexit, hdivergence⟩ :=
    t.exists_entry_eq report machine
  have hacceptable : Entry.Acceptable { entry with
      traceId := traceId suiteName runId (told.length + 1)
      suite := entry.suite.or (some suiteName) } :=
    t.acceptable_of_details (hids _) hdetails houtcome hexit hdivergence
  obtain ⟨e', after, -, hrun, hlocate, hlogged⟩ :=
    h.run_finish (machine.wallReadings + 1) machine.tickReadings hempty rfl hacceptable
  exact ⟨entry, _, after, _, hentry, hrun, hlogged.advances, hlocate,
    t.loggedIn_of_hasLogged hlogged hlength hevent hdetails⟩

/-! ## The files of a suite -/

/-- Makes the file of a log, without lines, if there is to be one. -/
def touchLog : Option String → ExceptT IoError (StateM Machine) Unit
  | none => pure ()
  | some path => do
    makeParents path
    Host.createFile path

/-- Makes the files of a report, without contents, if there is to be one. -/
def touchReport? : Option String → ExceptT IoError (StateM Machine) Unit
  | none => pure ()
  | some path => touchReport path

/-- Making the file of a log is a matter of the shape of the tree. -/
theorem byShape_touchLog (log : Option String) : Machine.ByShape (touchLog log) := by
  cases log with
  | none => exact .pure
  | some path => exact (Machine.OnlyMakes.makeParents path).byShape.seq (.createFile path)

namespace SuiteOptions

/-- Makes the files that a suite is going to write, without contents. -/
def touch (options : SuiteOptions) (variableValue : Option String) :
    ExceptT IoError (StateM Machine) Unit := do
  touchLog (chosenLog options.log variableValue)
  touchReport? options.report

/-- The paths of the files that a suite is going to write. -/
def files (options : SuiteOptions) (variableValue : Option String) : List String :=
  (chosenLog options.log variableValue).toList ++
    options.report.elim [] fun path => [path, reportJsonPath path, reportIndexPath path]

/-- What is left to do when the results have been told: the report is written, and the exit code
follows from the tally. -/
def conclude (options : SuiteOptions) (log : Option String) (timestamp : String) (tally : Tally) :
    ExceptT Failure (StateM Machine) UInt8 := do
  match options.report with
  | none => pure ()
  | some path =>
    let report : Report := { title := suiteTitle, campaign := suiteName, timestamp, tally }
    (report.save path log : ExceptT IoError (StateM Machine) Unit).adapt Failure.io
  if tally.allPassed then pure 0 else throw (.unexpectedResults tally.failed tally.total)

/-- The tally of fixtures that are run on a machine. -/
def tallyOf (fixtures : List Fixture) (machine : Machine) : Tally :=
  .ofResults ((Fixture.runAll fixtures : StateM Machine (List Result)) machine).1

/-- The results of a suite have been told: in messages, and in the log, which is the only file that
has been written. -/
structure Told (options : SuiteOptions) (variableValue : Option String) (fixtures : List Fixture)
    (machine : Machine) (opened : FileTree) (timestamp : String) (told : Machine) : Prop where
  timestamp_eq : ∀ given, options.timestamp = some given → timestamp = given
  output_eq : told.output = machine.output
  messages_eq : told.messages = machine.messages ++ loadingMessage options.fixture ++
    String.join (tallyOf fixtures machine).messages
  sameShape : SameShape opened told.tree
  logged : ∀ log, chosenLog options.log variableValue = some log → ∃ place content,
    told.tree.locate log = .ok (place, .file content) ∧
      (tallyOf fixtures machine).LoggedIn machine.runName content

variable {options : SuiteOptions} {variableValue : Option String} {machine opened : Machine}
  {fixtures : List Fixture}

/-- The time of a report is the one that is asked for, or that of the wall clock. -/
theorem exists_run_timestamp (options : SuiteOptions) (machine : Machine) :
    ∃ timestamp wall, (∀ given, options.timestamp = some given → timestamp = given) ∧
      machine.wallReadings ≤ wall ∧
      ∀ next : String → ExceptT Failure (StateM Machine) UInt8,
        machine.run (match options.timestamp with
        | some timestamp => do
          let timestamp ← pure timestamp
          next timestamp
        | none => do
          let timestamp ← (presentTime : StateM Machine String)
          next timestamp) =
        (machine.readClocks wall machine.tickReadings).run (next timestamp) := by
  cases options.timestamp with
  | some timestamp =>
    exact ⟨timestamp, machine.wallReadings, fun _ => Option.some.inj, Nat.le_refl _,
      fun _ => Machine.run_bind_of_ok (Machine.run_pure _ _) _⟩
  | none =>
    have hnow : (presentTime : StateM Machine String) machine =
        ((machine.wall machine.wallReadings).timestamp,
          machine.readClocks (machine.wallReadings + 1) machine.tickReadings) := rfl
    exact ⟨_, _, nofun, Nat.le_succ _, fun _ => Machine.run_bind_lift hnow _⟩

/-- **A suite without a log** tells its results in messages. -/
theorem run_of_no_log (hload : fixturesIn machine.tree options.fixture = .ok fixtures)
    (hlog : chosenLog options.log variableValue = none) :
    ∃ timestamp told, options.Told variableValue fixtures machine machine.tree timestamp told ∧
      machine.run (options.run variableValue) =
        told.run (options.conclude none timestamp (tallyOf fixtures machine)) := by
  have hloaded := run_suiteFixtures machine options.fixture
  rw [hload] at hloaded
  obtain ⟨loaded, hloading⟩ : ∃ loaded, loaded =
      machine.print [] (loadingMessage options.fixture) := ⟨_, rfl⟩
  rw [← hloading] at hloaded
  have hsame : machine.SameStopwatch loaded := by
    rw [hloading]
    exact ⟨rfl, rfl⟩
  obtain ⟨results, ticks, hplain, hrun, -⟩ := Fixture.runAll_of_sameStopwatch hsame fixtures
  have htally : tallyOf fixtures machine = Tally.ofResults results := by
    rw [tallyOf, hplain]
  have hfixtures : loaded.run (runFixtures fixtures none) =
      (.ok (results, none), { loaded with tickReadings := ticks }) := by
    rw [runFixtures, Machine.run_bind_lift hrun, Machine.run_pure]
  obtain ⟨timestamp, wall, hgiven, -, htime⟩ :=
    exists_run_timestamp options { loaded with tickReadings := ticks }
  refine ⟨timestamp, (loaded.readClocks wall ticks).print [] (String.join
    (Tally.ofResults results).messages), ⟨hgiven, ?_, ?_, ?_, ?_⟩, ?_⟩
  · simp [hloading, Machine.print, Machine.readClocks]
  · simp [hloading, Machine.print, Machine.readClocks, htally]
  · rw [hloading]
    exact .refl _
  · intro log hchosen
    rw [hlog] at hchosen
    cases hchosen
  · rw [run, Machine.run_bind_of_ok hloaded, hlog, htally]
    exact (Machine.run_bind_of_ok (Machine.run_pure _ none) _).trans
      ((Machine.run_bind_of_ok (Machine.run_adapt_of_ok hfixtures Failure.stream) _).trans
        ((htime _).trans (Machine.run_bind_lift (run_warnAll _ _) _)))

/-- The log of a suite is opened after a message that fixtures are being loaded. -/
theorem exists_started {log message : String}
    (hopen : machine.run (touchLog (some log)) = (.ok (), opened)) :
    ∃ place e started,
      (machine.print [] message).run (openLog log suiteName) = (.ok e, started) ∧
      e.HasLogged log place suiteName machine.runName started [] started ∧
      started.tree.node? place = some (.file []) ∧ SameShape opened.tree started.tree ∧
      started.SameStopwatch machine ∧ started.output = machine.output ∧
      started.messages = machine.messages ++ message := by
  have htree : SameShape machine.tree (machine.print [] message).tree := .refl _
  have hcreate : (machine.print [] message).CanCreate log :=
    Machine.CanCreate.of_sameShape (congrArg Prod.fst hopen) htree
  obtain ⟨tree, place, e, -, hslot, htouch, hrun, hlogged⟩ := run_openLog hcreate suiteName
  have hlocate : (({ machine.print [] message with tree } : Machine).putFile place []).tree.locate
      log = .ok (place, .file []) := Machine.locate_putFile hslot []
  have htouch : (machine.print [] message).run (touchLog (some log)) = _ := htouch
  have hshape := (byShape_touchLog (some log) machine _ htree).2
  rw [hopen, htouch] at hshape
  refine ⟨place, e, _, hrun, hlogged, (locate_eq_ok_iff.1 hlocate).2.2, hshape, ⟨rfl, rfl⟩, ?_, rfl⟩
  simp [Machine.putFile, Machine.print]

/-- **A suite with a log goes through stages**: the log is opened, the fixtures are run, and the
results are told in messages and in a last entry, which is logged and flushed. -/
theorem run_of_stages {log : String}
    (hload : fixturesIn machine.tree options.fixture = .ok fixtures)
    (hlog : chosenLog options.log variableValue = some log) {started ran : Machine}
    {e e' : Emitter} {results : List Result}
    (hopen : (machine.print [] (loadingMessage options.fixture)).run (openLog log suiteName) =
      (.ok e, started))
    (hran : started.run (Fixture.runAllLogged e fixtures) = (.ok (results, e'), ran)) :
    ∃ timestamp wall, (∀ given, options.timestamp = some given → timestamp = given) ∧
      ran.wallReadings ≤ wall ∧ ∀ entry stamped told,
        ((Tally.ofResults results).entry options.report : StateM Machine Entry)
          ((ran.readClocks wall ran.tickReadings).print []
            (String.join (Tally.ofResults results).messages)) = (entry, stamped) →
        stamped.run (do
          let e ← e'.emitEntry entry
          let _ ← e.flush : ExceptT IoError (StateM Machine) Unit) = (.ok (), told) →
        machine.run (options.run variableValue) =
          told.run (options.conclude (some log) timestamp (.ofResults results)) := by
  have hloaded := run_suiteFixtures machine options.fixture
  rw [hload] at hloaded
  have hfixtures : started.run (runFixtures fixtures (some e)) = (.ok (results, some e'), ran) := by
    rw [runFixtures, Machine.run_bind_of_ok hran, Machine.run_pure]
  obtain ⟨timestamp, wall, hgiven, hwall, htime⟩ := exists_run_timestamp options ran
  refine ⟨timestamp, wall, hgiven, hwall, fun entry stamped told hentry hfinish => ?_⟩
  rw [run, Machine.run_bind_of_ok hloaded, hlog]
  exact (Machine.run_bind_of_ok (Machine.run_map_of_ok hopen some) _).trans
    ((Machine.run_bind_of_ok (Machine.run_adapt_of_ok hfixtures Failure.stream) _).trans
      ((htime _).trans ((Machine.run_bind_lift (run_warnAll _ _) _).trans
        ((Machine.run_bind_lift hentry _).trans
          (Machine.run_bind_of_ok (Machine.run_adapt_of_ok hfinish Failure.stream) _)))))

/-- **A suite with a log** tells its results in messages and in the log. -/
theorem run_of_some_log {log : String}
    (hload : fixturesIn machine.tree options.fixture = .ok fixtures)
    (hlog : chosenLog options.log variableValue = some log)
    (hopen : machine.run (touchLog (some log)) = (.ok (), opened)) :
    ∃ timestamp told, options.Told variableValue fixtures machine opened.tree timestamp told ∧
      machine.run (options.run variableValue) =
        told.run (options.conclude (some log) timestamp (tallyOf fixtures machine)) := by
  have hids : ∀ n, IsTraceId (traceId suiteName machine.runName n) :=
    isTraceId_runName (by decide) machine
  obtain ⟨place, e, started, hrun, hlogged, hnode, hshape, hsame, houtput, hmessages⟩ :=
    exists_started hopen
  -- the fixtures are run
  obtain ⟨results, ticks, more, e', ran, hplain, hresults, hmore, hlogged, -, hran⟩ :=
    Fixture.run_runAllLogged_file hids fixtures hlogged hsame
  rw [List.nil_append] at hlogged
  have htally : tallyOf fixtures machine = Tally.ofResults results := by
    rw [tallyOf, hplain]
  -- the results are told
  obtain ⟨timestamp, wall, hgiven, -, hstages⟩ := run_of_stages hload hlog hrun hran
  obtain ⟨entry, stamped, after, content, hentry, hfinish, hadvances, hlocate, hloggedIn⟩ :=
    (Tally.ofResults results).exists_finish options.report
      ((hlogged.readClocks wall ran.tickReadings).print [] (String.join
        (Tally.ofResults results).messages)) hids (hmore.trans hresults.symm)
  obtain ⟨houtput', hmessages'⟩ := hadvances.output_eq
  refine ⟨timestamp, after, ⟨hgiven, ?_, ?_, hshape.trans (hadvances.sameShape hnode), ?_⟩, ?_⟩
  · rw [houtput', ← houtput]
    simp [Machine.print]
  · rw [hmessages', htally, ← hmessages]
    rfl
  · intro log' hlog'
    obtain rfl := Option.some.inj (hlog.symm.trans hlog')
    rw [htally]
    exact ⟨place, content, hlocate, hloggedIn⟩
  · rw [htally]
    exact hstages entry stamped after hentry hfinish

/-- **The stages of a suite before the report** succeed if its fixtures can be loaded and its log
can be opened. -/
theorem run_until_told (hload : fixturesIn machine.tree options.fixture = .ok fixtures)
    (hopen : machine.run (touchLog (chosenLog options.log variableValue)) = (.ok (), opened)) :
    ∃ timestamp told, options.Told variableValue fixtures machine opened.tree timestamp told ∧
      machine.run (options.run variableValue) =
        told.run (options.conclude (chosenLog options.log variableValue) timestamp
          (tallyOf fixtures machine)) := by
  cases hlog : chosenLog options.log variableValue with
  | none =>
    rw [hlog] at hopen
    obtain rfl : machine = opened := (Prod.mk.inj hopen).2
    exact run_of_no_log hload hlog
  | some log =>
    rw [hlog] at hopen
    exact run_of_some_log hload hlog hopen

/-! ## The report -/

/-- The report on a tally. -/
def reportOn (timestamp : String) (tally : Tally) : Report :=
  { title := suiteTitle, campaign := suiteName, timestamp, tally }

/-- How a suite ends that has not failed before: as its tally says. -/
def ending (tally : Tally) : Except Failure UInt8 :=
  if tally.allPassed then .ok 0 else .error (.unexpectedResults tally.failed tally.total)

/-- Without a report nothing is left to do. -/
theorem run_conclude_of_no_report (hreport : options.report = none) (log : Option String)
    (timestamp : String) (tally : Tally) :
    machine.run (options.conclude log timestamp tally) = (ending tally, machine) := by
  rw [conclude, hreport, ending]
  show machine.run (if tally.allPassed then pure 0 else throw _) = _
  split <;> rfl

/-- The suite ends as its tally says when the report has been written. -/
theorem run_conclude_of_run_save {path : String} {after : Machine} {log : Option String}
    {timestamp : String} {tally : Tally} (hreport : options.report = some path)
    (hsave : machine.run ((reportOn timestamp tally).save path log) = (.ok (), after)) :
    machine.run (options.conclude log timestamp tally) = (ending tally, after) := by
  rw [conclude, hreport]
  refine (Machine.run_bind_of_ok (Machine.run_adapt_of_ok hsave Failure.io) _).trans ?_
  rw [ending]
  split <;> rfl

/-- A suite fails if the files of its report cannot be made. -/
theorem run_conclude_of_not_canSave {path : String} (hreport : options.report = some path)
    (h : ¬ machine.CanSave path) (log : Option String) (timestamp : String) (tally : Tally) :
    ∃ e after, machine.run (options.conclude log timestamp tally) = (.error (.io e), after) := by
  rcases hsave : machine.run ((reportOn timestamp tally).save path log) with ⟨e | u, after⟩
  · refine ⟨e, after, ?_⟩
    rw [conclude, hreport]
    exact Machine.run_bind_of_error (Machine.run_adapt_of_error hsave Failure.io) _
  · exact absurd (Report.canSave_of_run_save (congrArg Prod.fst hsave)) h

/-- A suite has written its report: what the files hold then, and what the index tells of them. The
report may be lost to its JSON form, and the log to the index. -/
structure Saved (options : SuiteOptions) (variableValue : Option String) (fixtures : List Fixture)
    (machine after : Machine) (path timestamp : String) (i : ArtifactIndex) (found : Bytes)
    (report json index : Place) : Prop where
  timestamp_eq : ∀ given, options.timestamp = some given → timestamp = given
  output_eq : after.output = machine.output
  messages_eq : after.messages = machine.messages ++ loadingMessage options.fixture ++
    String.join (tallyOf fixtures machine).messages ++ Report.savedMessage path
  artifacts_eq : i.artifacts = ((reportOn timestamp (tallyOf fixtures machine)).records path
    (chosenLog options.log variableValue) found).map Recorded.artifact
  index_ne : index ≠ report ∧ index ≠ json
  json_eq_iff : json = report ↔ reportJsonPath path = path
  locate_report : after.tree.locate path = .ok (report, .file
    (if report = json then Bytes.ofText (reportOn timestamp (tallyOf fixtures machine)).json
      else Bytes.ofText (reportOn timestamp (tallyOf fixtures machine)).markdown))
  locate_json : after.tree.locate (reportJsonPath path) =
    .ok (json, .file (Bytes.ofText (reportOn timestamp (tallyOf fixtures machine)).json))
  locate_index : after.tree.locate (reportIndexPath path) =
    .ok (index, .file (Bytes.ofText i.json))
  logged : ∀ log, chosenLog options.log variableValue = some log → ∃ place content,
    (tallyOf fixtures machine).LoggedIn machine.runName content ∧
    (place ≠ report → place ≠ json → found = content) ∧
    after.tree.locate log =
      .ok (place, .file (if place = index then Bytes.ofText i.json else found))

/-- What becomes of the log when the files of the report are written. -/
theorem Told.exists_found {path timestamp : String} {told : Machine} {tree : FileTree}
    {report json index : Place}
    (h : options.Told variableValue fixtures machine opened.tree timestamp told)
    (hsaves : told.SavesTo path tree report json index) (markdown text : Bytes) :
    ∃ found, ∀ log, chosenLog options.log variableValue = some log → ∃ place content,
      (tallyOf fixtures machine).LoggedIn machine.runName content ∧
      (place ≠ report → place ≠ json → found = content) ∧
      ((tree.put report (.file markdown)).put json (.file text)).locate log =
        .ok (place, .file found) ∧
      ∀ list, (ReportPlaces.written tree report json index markdown text list).locate log =
        .ok (place, .file (if place = index then list else found)) := by
  cases hlog : chosenLog options.log variableValue with
  | none => exact ⟨[], nofun⟩
  | some log =>
    obtain ⟨place, content, hlocate, hlogged⟩ := h.logged log hlog
    obtain ⟨found, hbetween, hkept, hwritten⟩ := hsaves.exists_found hlocate markdown text
    refine ⟨found, fun log' hlog' => ?_⟩
    obtain rfl := Option.some.inj hlog'
    exact ⟨place, content, hlogged, hkept, hbetween, hwritten⟩

/-- **The last stage of a suite** succeeds if the files of its report can be made. -/
theorem run_conclude_of_told {path timestamp : String} {told : Machine}
    (hreport : options.report = some path)
    (htold : options.Told variableValue fixtures machine opened.tree timestamp told)
    (hsave : opened.CanSave path) :
    ∃ after i found report json index,
      options.Saved variableValue fixtures machine after path timestamp i found report json index ∧
      SameShape (opened.run (touchReport path)).2.tree after.tree ∧
      told.run (options.conclude (chosenLog options.log variableValue) timestamp
        (tallyOf fixtures machine)) = (ending (tallyOf fixtures machine), after) := by
  obtain ⟨tree, report, json, index, hsaves⟩ :=
    Machine.canSave_iff.1 (hsave.of_sameShape htold.sameShape)
  obtain ⟨r, hr⟩ : ∃ r, r = reportOn timestamp (tallyOf fixtures machine) := ⟨_, rfl⟩
  obtain ⟨found, hfound⟩ :=
    htold.exists_found hsaves (Bytes.ofText r.markdown) (Bytes.ofText r.json)
  obtain ⟨i, hartifacts, hrun⟩ := r.run_save hsaves fun log hlog => by
    obtain ⟨place, content, -, -, hbetween, -⟩ := hfound log hlog
    exact read_of_locate hbetween
  obtain ⟨after, hafter⟩ : ∃ after, after = (({ told with
      tree := ReportPlaces.written tree report json index (Bytes.ofText r.markdown)
        (Bytes.ofText r.json) (Bytes.ofText i.json)
      wallReadings := told.wallReadings + 1 } : Machine).print [] (Report.savedMessage path)) :=
    ⟨_, rfl⟩
  have htree : after.tree = ReportPlaces.written tree report json index (Bytes.ofText r.markdown)
      (Bytes.ofText r.json) (Bytes.ofText i.json) := by rw [hafter]; rfl
  rw [← hafter, hr] at hrun
  have hshape := (Machine.byShape_touchReport path opened told htold.sameShape).2
  rw [hsaves.run_touchReport] at hshape
  obtain ⟨hreport', hjson', hindex'⟩ := hsaves.places.locate_written (Bytes.ofText r.markdown)
    (Bytes.ofText r.json) (Bytes.ofText i.json)
  rw [← htree] at hreport' hjson' hindex'
  refine ⟨after, i, found, report, json, index, ⟨htold.timestamp_eq, ?_, ?_, hr ▸ hartifacts,
    hsaves.places.index_ne, hsaves.places.json_eq_iff, hr ▸ hreport', hr ▸ hjson', hindex', ?_⟩,
    ?_, run_conclude_of_run_save hreport hrun⟩
  · rw [hafter, ← htold.output_eq]
    simp [Machine.print]
  · rw [hafter, ← htold.messages_eq]
    rfl
  · intro log hlog
    obtain ⟨place, content, hlogged, hkept, -, hwritten⟩ := hfound log hlog
    rw [htree]
    exact ⟨place, content, hlogged, hkept, hwritten _⟩
  · rw [htree]
    exact hshape.trans (hsaves.places.sameShape_written [] [] [] _ _ _)

/-- The message at the end of a suite: its failure, unless all results passed. -/
def closingMessage (tally : Tally) : String :=
  if tally.allPassed then ""
  else "error: " ++ (Failure.unexpectedResults tally.failed tally.total).message ++ "\n"

end SuiteOptions

/-! ## How the command ends -/

namespace Command

open SuiteOptions

variable {options : SuiteOptions} {variableValue : Option String} {machine prepared : Machine}
  {fixtures : List Fixture}

/-- A suite that ends as its tally says has the exit code 0 or 1. -/
theorem perform_suite_of_run {tally : Tally} {after : Machine}
    (h : machine.run (options.run variableValue) = (ending tally, after)) :
    ((suite options).perform variableValue : StateM Machine UInt8) machine =
      (if tally.allPassed then 0 else 1, after.print [] (closingMessage tally)) := by
  rw [perform_eq, execute_suite, h, ending, closingMessage]
  cases tally.allPassed with
  | true => simp
  | false =>
    rw [Machine.print, List.append_nil]
    rfl

/-- **A suite with a report** ends when the report has been written. -/
theorem perform_suite_of_report {path : String}
    (hload : fixturesIn machine.tree options.fixture = .ok fixtures)
    (hreport : options.report = some path)
    (htouch : machine.run (options.touch variableValue) = (.ok (), prepared)) :
    ∃ after timestamp i found report json index,
      options.Saved variableValue fixtures machine after path timestamp i found report json index ∧
      SameShape prepared.tree after.tree ∧
      ((suite options).perform variableValue : StateM Machine UInt8) machine =
        (if (tallyOf fixtures machine).allPassed then 0 else 1,
          after.print [] (closingMessage (tallyOf fixtures machine))) := by
  obtain ⟨_, opened, hopen, hsave⟩ := Machine.exists_of_run_bind (congrArg Prod.fst htouch)
  have hprepared := (Machine.run_bind_of_ok hopen _).symm.trans htouch
  rw [hreport] at hprepared hsave
  obtain ⟨timestamp, told, htold, hrun⟩ := run_until_told hload hopen
  obtain ⟨after, i, found, report, json, index, hsaved, hshape, hconclude⟩ :=
    run_conclude_of_told hreport htold hsave
  have htree : (opened.run (touchReport path)).2.tree = prepared.tree :=
    congrArg (fun x => x.2.tree) hprepared
  rw [htree] at hshape
  exact ⟨after, timestamp, i, found, report, json, index, hsaved, hshape,
    perform_suite_of_run (hrun.trans hconclude)⟩

/-- The exit code is 2 if running a suite gives a failure that is no verdict. -/
theorem fst_perform_suite_of_error {failure : Failure} {after : Machine}
    (hcode : failure.exitCode = 2)
    (h : machine.run (options.run variableValue) = (.error failure, after)) :
    (((suite options).perform variableValue : StateM Machine UInt8) machine).1 = 2 := by
  rw [← execute_suite] at h
  obtain ⟨told, hperform, -⟩ := perform_of_error hcode h
  rw [hperform]

/-- The exit code is 2 if the fixtures cannot be loaded. -/
theorem fst_perform_suite_of_not_loaded {failure : Failure}
    (h : fixturesIn machine.tree options.fixture = .error failure) :
    (((suite options).perform variableValue : StateM Machine UInt8) machine).1 = 2 := by
  refine fst_perform_suite_of_error ?_ (run_of_fixturesIn_eq_error h)
  cases hpath : options.fixture with
  | none => rw [hpath] at h; cases h
  | some path =>
    rw [hpath] at h
    exact (Fixture.ofPath_eq_error machine.tree path).2 failure h

/-- The exit code is 2 if the log cannot be opened. -/
theorem fst_perform_suite_of_not_opened {e : IoError} {opened : Machine}
    (hload : fixturesIn machine.tree options.fixture = .ok fixtures)
    (hopen : machine.run (touchLog (chosenLog options.log variableValue)) = (.error e, opened)) :
    (((suite options).perform variableValue : StateM Machine UInt8) machine).1 = 2 := by
  cases hlog : chosenLog options.log variableValue with
  | none => rw [hlog] at hopen; cases hopen
  | some log =>
    rw [hlog] at hopen
    have hcreate : ¬ machine.CanCreate log := by
      intro hcreate
      have hcreate : (machine.run (touchLog (some log))).1 = .ok () := hcreate
      rw [hopen] at hcreate
      cases hcreate
    obtain ⟨e, tree, -, hrun⟩ := run_of_not_canCreate hload hlog hcreate
    exact fst_perform_suite_of_error rfl hrun

/-- The exit code is 2 if the files of the report cannot be made. -/
theorem fst_perform_suite_of_not_canSave {path : String} {opened : Machine}
    (hload : fixturesIn machine.tree options.fixture = .ok fixtures)
    (hreport : options.report = some path)
    (hopen : machine.run (touchLog (chosenLog options.log variableValue)) = (.ok (), opened))
    (hsave : ¬ opened.CanSave path) :
    (((suite options).perform variableValue : StateM Machine UInt8) machine).1 = 2 := by
  obtain ⟨timestamp, told, htold, hrun⟩ := run_until_told hload hopen
  have hsave' : ¬ told.CanSave path := fun h => hsave (h.of_sameShape htold.sameShape.symm)
  obtain ⟨e, after, hconclude⟩ := run_conclude_of_not_canSave hreport hsave' _ timestamp _
  exact fst_perform_suite_of_error rfl (hrun.trans hconclude)

/-- **A suite has a tooling error** unless its fixtures can be loaded and its files can be made. -/
theorem exists_touch_of_perform_suite
    (h : (((suite options).perform variableValue : StateM Machine UInt8) machine).1 ≠ 2) :
    ∃ fixtures prepared, fixturesIn machine.tree options.fixture = .ok fixtures ∧
      machine.run (options.touch variableValue) = (.ok (), prepared) := by
  cases hload : fixturesIn machine.tree options.fixture with
  | error failure => exact absurd (fst_perform_suite_of_not_loaded hload) h
  | ok fixtures =>
    rcases hopen : machine.run (touchLog (chosenLog options.log variableValue)) with ⟨e | u, opened⟩
    · exact absurd (fst_perform_suite_of_not_opened hload hopen) h
    · refine ⟨fixtures, (opened.run (touchReport? options.report)).2, rfl,
        (Machine.run_bind_of_ok hopen _).trans ?_⟩
      cases hreport : options.report with
      | none => rfl
      | some path =>
        by_cases hsave : opened.CanSave path
        · exact Machine.run_eq_of_fst hsave
        · exact absurd (fst_perform_suite_of_not_canSave hload hreport hopen hsave) h

end Command

end CopyTrial
