import CopyTrial.Proofs.Command.Run
import CopyTrial.Proofs.Fixture.Load

/-!
# Commands that are refused leave files intact

What can go wrong before the first copy does so before anything is written. A name that is not
known and fixtures that cannot be loaded leave the whole file tree as it is; a log that cannot be
opened leaves directories above it at most.

## Main results

* `run_suiteFixtures` — loading the fixtures of a suite.
* `Command.perform_of_failure` — the four kinds of failures before the first copy.
-/

set_option autoImplicit false

namespace CopyTrial

open FileTree

/-! ## The fixtures of a suite -/

/-- The message that fixtures are being loaded. -/
def loadingMessage : Option String → String
  | none => ""
  | some path => "Loading scenarios from " ++ path ++ "\n"

/-- The fixtures of a suite in a tree, or why there are none. -/
def fixturesIn (tree : FileTree) : Option String → Except Failure (List Fixture)
  | none => .ok [.builtin]
  | some path => Fixture.ofPath tree path

/-- Loading the fixtures of a suite gives what is in the tree, and only a message besides. -/
theorem run_suiteFixtures (machine : Machine) (path : Option String) :
    machine.run (suiteFixtures path) =
      (fixturesIn machine.tree path, machine.print [] (loadingMessage path)) := by
  cases path with
  | none =>
    have hmessage : loadingMessage none = "" := rfl
    have hfixtures : fixturesIn machine.tree none = .ok [.builtin] := rfl
    rw [hmessage, Machine.print_nil, hfixtures]
    exact Machine.run_pure machine [Fixture.builtin]
  | some path =>
    have hmessage : loadingMessage (some path) = "Loading scenarios from " ++ path ++ "\n" := rfl
    have htree : (machine.print [] (loadingMessage (some path))).tree = machine.tree := rfl
    rw [suiteFixtures, ← hmessage, Machine.run_bind_lift (machine.run_warn _), Fixture.run_load,
      htree, fixturesIn]

namespace SuiteOptions

variable {options : SuiteOptions} {variableValue : Option String} {machine : Machine}

/-- Nothing but a message is left of a suite whose fixtures cannot be loaded. -/
theorem run_of_fixturesIn_eq_error {failure : Failure}
    (h : fixturesIn machine.tree options.fixture = .error failure) :
    machine.run (options.run variableValue) =
      (.error failure, machine.print [] (loadingMessage options.fixture)) := by
  have hload := run_suiteFixtures machine options.fixture
  rw [h] at hload
  exact Machine.run_bind_of_error hload _

/-- Nothing is copied if the log cannot be opened. -/
theorem run_of_not_canCreate {fixtures : List Fixture} {log : String}
    (h : fixturesIn machine.tree options.fixture = .ok fixtures)
    (hlog : chosenLog options.log variableValue = some log) (hopen : ¬ machine.CanCreate log) :
    ∃ e tree, GrowsAlong (Path.Above log) machine.tree tree ∧
      machine.run (options.run variableValue) =
        (.error (.logNotOpened log e),
          { machine.print [] (loadingMessage options.fixture) with tree }) := by
  have hload := run_suiteFixtures machine options.fixture
  rw [h] at hload
  have hopen' : ¬ (machine.print [] (loadingMessage options.fixture)).CanCreate log :=
    fun hcreate => hopen (hcreate.of_sameShape (.refl machine.tree))
  obtain ⟨e, tree, hgrows, hrun⟩ := run_openLog_of_not_canCreate hopen' suiteName
  refine ⟨e, tree, hgrows, ?_⟩
  rw [run, Machine.run_bind_of_ok hload, hlog]
  exact Machine.run_bind_of_error (Machine.run_map_of_error hrun some) _

end SuiteOptions

/-! ## Failures before the first copy -/

namespace Command

/-- A suite is carried out by running it. -/
theorem execute_suite (options : SuiteOptions) (variableValue : Option String) :
    ((suite options).execute variableValue : ExceptT Failure (StateM Machine) UInt8) =
      options.run variableValue := rfl

/-- A primitive or a fill that is not known leaves all files as they are. -/
theorem perform_run_of_unknown {options : RunOptions}
    (h : Kind.read? options.primitive = none ∨ Fill.read? options.fill = none)
    (variableValue : Option String) (machine : Machine) :
    ∃ after, ((run options).perform variableValue : StateM Machine UInt8) machine = (2, after) ∧
      after.output = machine.output ∧ after.tree = machine.tree := by
  cases hkind : Kind.read? options.primitive with
  | none =>
    have hrun : machine.run ((run options).execute variableValue) = _ :=
      RunOptions.run_of_unknown_primitive hkind
    obtain ⟨after, hperform, htree, houtput⟩ := perform_of_error rfl hrun
    exact ⟨after, hperform, houtput, htree⟩
  | some kind =>
    rw [hkind] at h
    have hrun : machine.run ((run options).execute variableValue) = _ :=
      RunOptions.run_of_invalid_fill hkind (h.resolve_left nofun)
    obtain ⟨after, hperform, htree, houtput⟩ := perform_of_error rfl hrun
    exact ⟨after, hperform, houtput, htree⟩

/-- Fixtures that cannot be loaded leave all files as they are. -/
theorem perform_suite_of_lacking {options : SuiteOptions} {machine : Machine} {path : String}
    (hpath : options.fixture = some path) (h : Fixture.Lacking machine.tree path)
    (variableValue : Option String) :
    ∃ after, ((suite options).perform variableValue : StateM Machine UInt8) machine =
        (2, after) ∧ after.output = machine.output ∧ after.tree = machine.tree := by
  obtain ⟨hiff, hcode⟩ := Fixture.ofPath_eq_error machine.tree path
  obtain ⟨failure, hfailure⟩ := hiff.2 h
  have hfixtures : fixturesIn machine.tree options.fixture = .error failure := by
    rw [hpath]
    exact hfailure
  have hrun : machine.run ((suite options).execute variableValue) = _ :=
    SuiteOptions.run_of_fixturesIn_eq_error hfixtures
  obtain ⟨after, hperform, htree, houtput⟩ := perform_of_error (hcode failure hfailure) hrun
  refine ⟨after, hperform, houtput.trans ?_, htree⟩
  simp [Machine.print]

/-- A log that cannot be opened for a trial leaves directories above it at most. -/
theorem perform_run_of_not_canCreate {options : RunOptions} {variableValue : Option String}
    {machine : Machine} {log : String} (hlog : chosenLog options.log variableValue = some log)
    (h : ¬ machine.CanCreate log) :
    ∃ after, ((run options).perform variableValue : StateM Machine UInt8) machine = (2, after) ∧
      after.output = machine.output ∧ GrowsAlong (Path.Above log) machine.tree after.tree := by
  by_cases hunknown : Kind.read? options.primitive = none ∨ Fill.read? options.fill = none
  · obtain ⟨after, hperform, houtput, htree⟩ :=
      perform_run_of_unknown hunknown variableValue machine
    exact ⟨after, hperform, houtput, htree ▸ .refl _ _⟩
  · rw [not_or] at hunknown
    obtain ⟨kind, hkind⟩ := Option.ne_none_iff_exists'.1 hunknown.1
    obtain ⟨fill, hfill⟩ := Option.ne_none_iff_exists'.1 hunknown.2
    obtain ⟨e, tree, hgrows, hrun⟩ := RunOptions.run_of_not_canCreate hkind hfill hlog h
    rw [← execute_run] at hrun
    obtain ⟨after, hperform, htree, houtput⟩ := perform_of_error rfl hrun
    exact ⟨after, hperform, houtput, htree ▸ hgrows⟩

/-- A log that cannot be opened for a suite leaves directories above it at most. -/
theorem perform_suite_of_not_canCreate {options : SuiteOptions} {variableValue : Option String}
    {machine : Machine} {log : String} (hlog : chosenLog options.log variableValue = some log)
    (h : ¬ machine.CanCreate log) :
    ∃ after, ((suite options).perform variableValue : StateM Machine UInt8) machine =
        (2, after) ∧ after.output = machine.output ∧
      GrowsAlong (Path.Above log) machine.tree after.tree := by
  cases hfixtures : fixturesIn machine.tree options.fixture with
  | error failure =>
    cases hpath : options.fixture with
    | none =>
      rw [hpath] at hfixtures
      cases hfixtures
    | some path =>
      rw [hpath] at hfixtures
      have hlacking := (Fixture.ofPath_eq_error machine.tree path).1.1 ⟨failure, hfixtures⟩
      obtain ⟨after, hperform, houtput, htree⟩ :=
        perform_suite_of_lacking hpath hlacking variableValue
      exact ⟨after, hperform, houtput, htree ▸ .refl _ _⟩
  | ok fixtures =>
    obtain ⟨e, tree, hgrows, hrun⟩ := SuiteOptions.run_of_not_canCreate hfixtures hlog h
    rw [← execute_suite] at hrun
    obtain ⟨after, hperform, htree, houtput⟩ := perform_of_error rfl hrun
    refine ⟨after, hperform, houtput.trans ?_, htree ▸ hgrows⟩
    simp [Machine.print]

/-- **Failures before the first copy leave files intact.** The exit code is 2 and nothing is
printed. A primitive or a fill that is not known, and a path to fixtures that leads to nothing, to
a file that holds none, to a directory without any, or to one in which one of them cannot be read,
leave the whole file tree as it is, whatever log and report are asked for. If the log cannot be
opened, the only changes are new directories above it. -/
theorem perform_of_failure (variableValue : Option String) (machine : Machine) :
    (∀ options : RunOptions,
      Kind.read? options.primitive = none ∨ Fill.read? options.fill = none →
        ∃ after, ((run options).perform variableValue : StateM Machine UInt8) machine =
            (2, after) ∧ after.output = machine.output ∧ after.tree = machine.tree) ∧
      (∀ (options : SuiteOptions) (path : String), options.fixture = some path →
        Fixture.Lacking machine.tree path →
        ∃ after, ((suite options).perform variableValue : StateM Machine UInt8) machine =
            (2, after) ∧ after.output = machine.output ∧ after.tree = machine.tree) ∧
      (∀ (options : RunOptions) (log : String),
        chosenLog options.log variableValue = some log → ¬ machine.CanCreate log →
        ∃ after, ((run options).perform variableValue : StateM Machine UInt8) machine =
            (2, after) ∧ after.output = machine.output ∧
          GrowsAlong (Path.Above log) machine.tree after.tree) ∧
      ∀ (options : SuiteOptions) (log : String),
        chosenLog options.log variableValue = some log → ¬ machine.CanCreate log →
        ∃ after, ((suite options).perform variableValue : StateM Machine UInt8) machine =
            (2, after) ∧ after.output = machine.output ∧
          GrowsAlong (Path.Above log) machine.tree after.tree :=
  ⟨fun _ h => perform_run_of_unknown h variableValue machine,
    fun _ _ hpath h => perform_suite_of_lacking hpath h variableValue,
    fun _ _ hlog h => perform_run_of_not_canCreate hlog h,
    fun _ _ hlog h => perform_suite_of_not_canCreate hlog h⟩

/-- A machine with a directory of two fixtures, the second of which holds no text. -/
def spoiltFixtures : Machine where
  tree := ⟨[(["cases"], .directory),
    (["cases", "a.json"], .file (Bytes.ofText "[\"v1\", \"memcpy\", []]")),
    (["cases", "b.json"], .file [0xff])]⟩

/-- The options of a suite over these fixtures. -/
def spoiltSuite : SuiteOptions where
  fixture := some "cases"
  log := some "run.log"
  report := some "r.md"

/-- The theorem on a fill that is too large, on a directory with a spoilt fixture, and on a log
below a file. -/
theorem perform_of_failure_spoilt :
    (∃ after, ((run { fill := "256", log := some "run.log" }).perform none : StateM Machine UInt8)
        spoiltFixtures = (2, after) ∧ after.output = [] ∧ after.tree = spoiltFixtures.tree) ∧
      (∃ after, ((suite spoiltSuite).perform none : StateM Machine UInt8) spoiltFixtures =
        (2, after) ∧ after.output = [] ∧ after.tree = spoiltFixtures.tree) ∧
      (∃ after, ((run {}).perform (some "cases/b.json/run.log") : StateM Machine UInt8)
          spoiltFixtures = (2, after) ∧ after.output = [] ∧
        GrowsAlong (Path.Above "cases/b.json/run.log") spoiltFixtures.tree after.tree) ∧
      ∃ after, ((suite {}).perform (some "cases/b.json/run.log") : StateM Machine UInt8)
          spoiltFixtures = (2, after) ∧ after.output = [] ∧
        GrowsAlong (Path.Above "cases/b.json/run.log") spoiltFixtures.tree after.tree := by
  have hfill : Fill.read? "256" = none := by decide +kernel
  have hlist : spoiltFixtures.tree.list "cases" = .ok ["a.json", "b.json"] := by decide +kernel
  have hread : spoiltFixtures.tree.read "cases/b.json" = .ok [0xff] := by decide +kernel
  have htext : Bytes.toText? [0xff] = none := by decide +kernel
  have hname : "b.json" ∈ ["a.json", "b.json"] := by decide
  have hlacking : Fixture.Lacking spoiltFixtures.tree "cases" := by
    refine .entry hlist hname (by decide +kernel) ?_
    rintro fixture ⟨bytes, text, hbytes, hnone, -⟩
    obtain rfl := Except.ok.inj (hread.symm.trans hbytes)
    rw [htext] at hnone
    cases hnone
  have hlog : ¬ spoiltFixtures.CanCreate "cases/b.json/run.log" := by
    rw [Machine.CanCreate]
    decide +kernel
  obtain ⟨hrun, hsuite, -⟩ := perform_of_failure none spoiltFixtures
  obtain ⟨-, -, hrun', hsuite'⟩ := perform_of_failure (some "cases/b.json/run.log") spoiltFixtures
  exact ⟨hrun _ (.inr hfill), hsuite _ _ rfl hlacking, hrun' _ _ rfl hlog, hsuite' _ _ rfl hlog⟩

end Command

end CopyTrial
