import CopyTrial.Proofs.Campaign.Stamps
import CopyTrial.Proofs.Command.Suite

/-!
# Timestamps in the logs of commands

The command for one trial logs an entry before the trial and one after it, and a suite logs an entry
for each of its scenarios and one on the tally. Each entry is stamped when it is made, so the
timestamps of a log sort as texts in the order of its lines.

## Main results

* `RunOptions.run_stamped`, `SuiteOptions.run_stamped` — the log of a command is stamped line by
  line.
* `timestamps_sort_as_text` — timestamps compare as moments do, and do not fall along a log.
-/

set_option autoImplicit false

namespace CopyTrial

open FileTree Emitter

/-- A log that has just been opened is stamped line by line: there are no lines. -/
theorem exists_stamped_of_openLog {machine : Machine} {path : String} (h : machine.CanCreate path)
    (suite : String) :
    ∃ place e started, machine.run (openLog path suite) = (.ok e, started) ∧
      Stamped (some (path, place)) machine [] e started := by
  obtain ⟨tree, place, e, -, -, -, hrun, hlogged⟩ := run_openLog h suite
  exact ⟨place, e, _, hrun, .of_holds hlogged.onFile rfl⟩

/-- The entry on a trial is stamped by the next reading. -/
theorem Trial.exists_entry_stamped (t : Trial) (p : Primitive) (verdict : Verdict)
    (duration : UInt64) (machine : Machine) :
    ∃ entry, (t.entry p verdict duration : StateM Machine Entry) machine =
        (entry, machine.readClocks (machine.wallReadings + 1) machine.tickReadings) ∧
      entry.timestamp = (machine.wall machine.wallReadings).timestamp :=
  ⟨_, rfl, rfl⟩

/-- The entry on a tally is stamped by the next reading. -/
theorem Tally.exists_entry_stamped (t : Tally) (report : Option String) (machine : Machine) :
    ∃ entry, (t.entry report : StateM Machine Entry) machine =
        (entry, machine.readClocks (machine.wallReadings + 1) machine.tickReadings) ∧
      entry.timestamp = (machine.wall machine.wallReadings).timestamp :=
  ⟨_, rfl, rfl⟩

/-! ## One trial -/

/-- **The log of a trial is stamped line by line.** -/
theorem RunOptions.run_stamped {options : RunOptions} {variableValue : Option String}
    {machine : Machine} {kind : Kind} {fill : UInt8} {log : String}
    (hkind : Kind.read? options.primitive = some kind)
    (hfill : Fill.read? options.fill = some fill)
    (hlog : chosenLog options.log variableValue = some log) (hopen : machine.CanCreate log) :
    ∃ code start result after, machine.run (options.run variableValue) = (.ok code, after) ∧
      after.tree.read log = .ok (Bytes.ofText (logText [start, result])) ∧
      machine.Stamps [start, result] := by
  obtain ⟨place, e, opened, hrun, hstamped⟩ := exists_stamped_of_openLog hopen "run"
  -- the first entry
  obtain ⟨start, e', tree, hemit, hstamped⟩ := hstamped.run_emit .debug "harness_start"
  obtain ⟨started, hstarted⟩ : ∃ started : Machine, started =
      { opened.readClocks (opened.wallReadings + 1) opened.tickReadings with tree } := ⟨_, rfl⟩
  rw [← hstarted] at hemit hstamped
  -- the trial, and the entry on it
  obtain ⟨verdict, hverdict⟩ : ∃ verdict, (options.trial fill).verdict kind.primitive = verdict :=
    ⟨_, rfl⟩
  obtain ⟨entry, hentry, hstamp⟩ := (options.trial fill).exists_entry_stamped kind.primitive verdict
    (elapsed (started.ticks started.tickReadings) (started.ticks (started.tickReadings + 1)))
    (tried started verdict)
  have htried : Stamped (some (log, place)) machine [start] e' (tried started verdict) :=
    hstamped.congr rfl rfl rfl (Nat.le_refl _)
  obtain ⟨result, after, hfinish, hread, hstamps⟩ := htried.run_finish _ hstamp
  exact ⟨verdict.exitCode, start, result, after,
    run_of_stages hkind hfill hlog hverdict hrun hemit hentry hfinish, hread, hstamps⟩

/-! ## A suite -/

/-- **The log of a suite is stamped line by line.** -/
theorem SuiteOptions.run_stamped {options : SuiteOptions} {variableValue : Option String}
    {machine : Machine} {fixtures : List Fixture} {log : String}
    (hload : fixturesIn machine.tree options.fixture = .ok fixtures)
    (hlog : chosenLog options.log variableValue = some log) (hopen : machine.CanCreate log) :
    ∃ (entries : List Entry) (timestamp : String) (tally : Tally) (told : Machine),
      machine.run (options.run variableValue) =
        told.run (options.conclude (some log) timestamp tally) ∧
      told.tree.read log = .ok (Bytes.ofText (logText entries)) ∧
      entries.length = (fixtures.flatMap Fixture.cases).length + 1 ∧ machine.Stamps entries := by
  have hcreate : (machine.print [] (loadingMessage options.fixture)).CanCreate log :=
    hopen.of_sameShape (.refl _)
  obtain ⟨place, e, started, hrun, hstamped⟩ := exists_stamped_of_openLog hcreate suiteName
  -- the fixtures are run
  obtain ⟨results, more, e', ran, hran, hlength, hstamped⟩ := hstamped.run_runAllLogged fixtures
  rw [List.nil_append] at hstamped
  -- the results are told
  obtain ⟨timestamp, wall, -, hwall, hstages⟩ := run_of_stages hload hlog hrun hran
  have hquoted : Stamped (some (log, place)) (machine.print [] (loadingMessage options.fixture))
      more e' ((ran.readClocks wall ran.tickReadings).print []
        (String.join (Tally.ofResults results).messages)) :=
    hstamped.congr rfl rfl rfl hwall
  obtain ⟨entry, hentry, hstamp⟩ := (Tally.ofResults results).exists_entry_stamped options.report _
  obtain ⟨last, told, hfinish, hread, hstamps⟩ := hquoted.run_finish _ hstamp
  refine ⟨more ++ [last], timestamp, .ofResults results, told,
    hstages entry _ told hentry hfinish, hread, ?_, hstamps⟩
  rw [List.length_append, hlength]
  rfl

/-! ## Timestamps as texts -/

/-- **Timestamps sort as texts.** The timestamps of two moments before the year 10000 have 24
characters each, and one stands before the other, as a text, exactly if its moment is the earlier
one; they are the same only for the same moment. So under a wall clock that does not go back no
later reading has an earlier timestamp, and readings share one exactly if they have the same
milliseconds. Each entry of a log is stamped by a reading of its own, so the timestamps do not fall
along the log of fixtures that are run, the two of the command for one trial, or those of a
suite.

**Proof sketch.** The fields of a timestamp compare one after the other, and a later day has a later
date. Each way to log an entry goes on with the next reading of the wall clock. -/
theorem timestamps_sort_as_text :
    (∀ seconds millis seconds' millis', millis < 1000 → millis' < 1000 →
      (Date.ofDays (seconds / 86400)).year < 10000 →
      (Date.ofDays (seconds' / 86400)).year < 10000 →
      (timestamp seconds millis).length = 24 ∧ (timestamp seconds' millis').length = 24 ∧
      (timestamp seconds millis < timestamp seconds' millis' ↔
        seconds < seconds' ∨ seconds = seconds' ∧ millis < millis') ∧
      (timestamp seconds millis = timestamp seconds' millis' ↔
        seconds = seconds' ∧ millis = millis')) ∧
    ∀ machine : Machine, machine.SteadyClock →
      (∀ j k, (j ≤ k → (machine.wall j).timestamp ≤ (machine.wall k).timestamp) ∧
        ((machine.wall j).timestamp = (machine.wall k).timestamp ↔
          (machine.wall j).millis = (machine.wall k).millis)) ∧
      (∀ suite runId fixtures, ∃ results entries e after,
        machine.run (Fixture.runAllLogged (ofMemory suite runId) fixtures) =
          (.ok (results, e), after) ∧
        e.buffered = some (logText entries) ∧
        entries.length = (fixtures.flatMap Fixture.cases).length ∧ machine.Stamps entries ∧
        (entries.map Entry.timestamp).Pairwise (· ≤ ·)) ∧
      (∀ (options : RunOptions) variableValue log, ¬ options.Refused variableValue machine →
        chosenLog options.log variableValue = some log → ∃ code after start result,
          ((Command.run options).perform variableValue : StateM Machine UInt8) machine =
            (code, after) ∧
          after.tree.read log = .ok (Bytes.ofText (logText [start, result])) ∧
          machine.Stamps [start, result] ∧ start.timestamp ≤ result.timestamp) ∧
      (∀ (options : SuiteOptions) variableValue log fixtures,
        fixturesIn machine.tree options.fixture = .ok fixtures →
        chosenLog options.log variableValue = some log → machine.CanCreate log →
        options.report = none → ∃ code after entries,
          ((Command.suite options).perform variableValue : StateM Machine UInt8) machine =
            (code, after) ∧
          after.tree.read log = .ok (Bytes.ofText (logText entries)) ∧
          entries.length = (fixtures.flatMap Fixture.cases).length + 1 ∧ machine.Stamps entries ∧
          (entries.map Entry.timestamp).Pairwise (· ≤ ·)) := by
  refine ⟨?_, fun machine hclock => ⟨fun j k => ⟨hclock.timestamp_le,
    Instant.timestamp_eq_iff (hclock.regular j) (hclock.regular k)⟩, ?_, ?_, ?_⟩⟩
  · intro seconds millis seconds' millis' hmillis hmillis' hyear hyear'
    exact ⟨length_timestamp hmillis hyear, length_timestamp hmillis' hyear',
      timestamp_lt_timestamp_iff hmillis hmillis' hyear hyear',
      timestamp_eq_timestamp_iff hmillis hmillis'⟩
  · intro suite runId fixtures
    have hnew : Stamped none machine [] (ofMemory suite runId) machine := .of_holds rfl rfl
    obtain ⟨results, entries, e, after, hrun, hlength, hstamped⟩ := hnew.run_runAllLogged fixtures
    rw [List.nil_append] at hstamped
    have hsink : e.sink = .memory (logText entries) := hstamped.holds
    refine ⟨results, entries, e, after, hrun, ?_, hlength, hstamped.stamps_entries,
      hclock.pairwise_timestamp_le hstamped.stamps_entries⟩
    rw [buffered, hsink]
  · intro options variableValue log hrefused hlog
    simp only [RunOptions.Refused, not_or, not_exists, not_and, not_not] at hrefused
    obtain ⟨hkind, hfill, hopen⟩ := hrefused
    obtain ⟨kind, hkind⟩ := Option.ne_none_iff_exists'.1 hkind
    obtain ⟨fill, hfill⟩ := Option.ne_none_iff_exists'.1 hfill
    obtain ⟨code, start, result, after, hrun, hread, hstamps⟩ :=
      RunOptions.run_stamped hkind hfill hlog (hopen log hlog)
    rw [← Command.execute_run] at hrun
    refine ⟨code, after, start, result, Command.perform_eq_of_ok hrun, hread, hstamps, ?_⟩
    simpa using hclock.pairwise_timestamp_le hstamps
  · intro options variableValue log fixtures hload hlog hopen hreport
    obtain ⟨entries, timestamp, tally, told, hrun, hread, hlength, hstamps⟩ :=
      SuiteOptions.run_stamped hload hlog hopen
    rw [SuiteOptions.run_conclude_of_no_report hreport] at hrun
    exact ⟨_, _, entries, Command.perform_suite_of_run hrun, hread, hlength, hstamps,
      hclock.pairwise_timestamp_le hstamps⟩

/-- A machine whose wall clock starts before 1970 and stands still in the end. -/
def risingClock : Machine where
  wall k := ⟨(min k 3 : Nat) - 1, 999999999⟩

/-- The theorem on the last moment before a leap day, on the last one before the year 10000, and on
commands under a wall clock that starts before 1970. -/
theorem timestamps_sort_as_text_risingClock :
    timestamp 951782399 999 < timestamp 951782400 0 ∧ (timestamp 253402300799 999).length = 24 ∧
    risingClock.SteadyClock ∧
    (∃ results entries e after,
      risingClock.run (Fixture.runAllLogged (ofMemory "s" "r") [.builtin]) =
        (.ok (results, e), after) ∧
      e.buffered = some (logText entries) ∧ (entries.map Entry.timestamp).Pairwise (· ≤ ·)) ∧
    (∃ code after start result,
      ((Command.run { primitive := "noop", log := some "l" }).perform none :
        StateM Machine UInt8) risingClock = (code, after) ∧
      after.tree.read "l" = .ok (Bytes.ofText (logText [start, result])) ∧
      start.timestamp ≤ result.timestamp) ∧
    ∃ code after entries,
      ((Command.suite { log := some "l" }).perform none : StateM Machine UInt8) risingClock =
        (code, after) ∧
      after.tree.read "l" = .ok (Bytes.ofText (logText entries)) ∧
      (entries.map Entry.timestamp).Pairwise (· ≤ ·) := by
  have hyear : ∀ seconds ≤ 253402300799, (Date.ofDays (seconds / 86400)).year < 10000 :=
    fun seconds h => (Date.year_ofDays_lt_iff _).2 (by omega)
  have hclock : risingClock.SteadyClock := by
    refine ⟨fun k => ⟨Nat.lt_succ_self _, hyear _ ?_⟩, fun j k hjk => ?_⟩
    · simp only [risingClock]
      omega
    · simp only [risingClock, Instant.NotAfter]
      omega
  obtain ⟨hmoments, hmachines⟩ := timestamps_sort_as_text
  obtain ⟨-, hfixtures, hruns, hsuites⟩ := hmachines risingClock hclock
  have hrefused : ¬ RunOptions.Refused { primitive := "noop", log := some "l" } none
      risingClock := by
    rintro (hkind | hfill | ⟨log, hlog, hopen⟩)
    · exact absurd hkind (by decide +kernel)
    · exact absurd hfill (by decide +kernel)
    · obtain rfl := Option.some.inj hlog
      exact hopen rfl
  obtain ⟨-, -, hleap, -⟩ := hmoments 951782399 999 951782400 0 (by decide) (by decide)
    (hyear _ (by decide)) (hyear _ (by decide))
  obtain ⟨hlast, -⟩ := hmoments 253402300799 999 0 0 (by decide) (by decide)
    (hyear _ (by decide)) (hyear _ (by decide))
  obtain ⟨results, entries, e, after, hrun, htext, -, -, hsorted⟩ := hfixtures "s" "r" [.builtin]
  obtain ⟨code, after', start, result, hperform, hread, -, hle⟩ := hruns _ none _ hrefused rfl
  obtain ⟨code', after'', entries', hperform', hread', -, -, hsorted'⟩ :=
    hsuites { log := some "l" } none _ _ rfl rfl rfl rfl
  exact ⟨hleap.2 (.inl (by decide)), hlast, hclock, ⟨results, entries, e, after, hrun, htext,
    hsorted⟩, ⟨code, after', start, result, hperform, hread, hle⟩,
    ⟨code', after'', entries', hperform', hread', hsorted'⟩⟩

end CopyTrial
