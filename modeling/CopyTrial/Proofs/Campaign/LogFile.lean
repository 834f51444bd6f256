import CopyTrial.Proofs.Log.File

/-!
# Runs logged to a file

Fixtures that are run with a log in a file give the results that they give without a log, for the
log takes nothing from the stopwatch. The log goes on with one acceptable entry for each scenario.

## Main results

* `Fixture.run_runAllLogged_file` — what running fixtures adds to a log in a file, and what
  results it gives.
-/

set_option autoImplicit false

namespace CopyTrial

open FileTree Emitter

namespace Fixture

variable {path suite runId : String} {place : Place} {opened machine plain : Machine}
  {entries : List Entry} {e : Emitter}

/-- **What running one scenario with a log in a file does**: there is an entry more, and the others
are run next. The result is that of the scenario without a log. -/
theorem run_runCasesLogged_cons_file (hid : ∀ n, IsTraceId (traceId suite runId n))
    (h : e.HasLogged path place suite runId opened entries machine)
    (hsame : machine.SameStopwatch plain) (family : String) (s : Scenario)
    (rest : List Scenario) :
    ∃ (outcome : Result × Option Attempt) (ticks : Nat) (entry : Entry) (e' : Emitter)
      (after : Machine),
      (s.run family : StateM Machine (Result × Option Attempt)) plain =
        (outcome, { plain with tickReadings := ticks }) ∧
      e'.HasLogged path place suite runId opened (entries ++ [entry]) after ∧
      after.SameStopwatch { plain with tickReadings := ticks } ∧
      machine.run (runCasesLogged family e (s :: rest)) =
        after.run (do
          let (results, e) ← runCasesLogged family e' rest
          pure (outcome.1 :: results, e)) := by
  obtain ⟨⟨result, attempt⟩, ticks, hlogged, hplain⟩ := s.run_of_sameStopwatch hsame family
  let base := s.record (machine.wall machine.wallReadings).timestamp
    (traceId suite runId (entries.length + 1)) result attempt
  have hacceptable : base.Acceptable := s.acceptable_record _ result attempt (hid _)
  let entry : Entry := { base with suite := base.suite.or (some suite) }
  have htrace : entry.traceId = traceId suite runId (entries.length + 1) :=
    s.traceId_record _ _ result attempt
  obtain ⟨e', content, hwrite, hmore⟩ := h.run_writeLine (machine.wallReadings + 1) ticks htrace
    ⟨hacceptable.loggable, hacceptable.faults_eq⟩
  have hcomplete : ({ e with sequence := e.sequence + 1 } : Emitter).complete base =
      (entry, { e with sequence := e.sequence + 1 }) := by
    rw [complete, if_neg hacceptable.traceId_ne_empty]
    simp only [h.suite_eq, entry]
  have hemit : (machine.readClocks (machine.wallReadings + 1) ticks).run
      (emitEntry { e with sequence := e.sequence + 1 } base) =
        (.ok e', (machine.readClocks (machine.wallReadings + 1) ticks).putFile place content) := by
    rw [emitEntry, hcomplete]
    exact hwrite
  have hnext : e.nextTraceId = (traceId suite runId (entries.length + 1),
      { e with sequence := e.sequence + 1 }) := by
    rw [nextTraceId, h.suite_eq, h.runId_eq, h.sequence_eq]
  refine ⟨(result, attempt), ticks, entry, e', _, hplain, hmore, ⟨hsame.1, rfl⟩, ?_⟩
  rw [run_runCasesLogged_of_run hlogged, hnext]
  exact Machine.run_bind_of_ok hemit _

/-- What running the scenarios of a fixture with a log in a file does: the log goes on with an
entry for each of them, and the results are those without a log.

**Proof sketch.** Induction on the scenarios. The stopwatch stays that of the machine on which
nothing is logged. -/
theorem run_runCasesLogged_file (hid : ∀ n, IsTraceId (traceId suite runId n)) (family : String)
    (cases : List Scenario) (h : e.HasLogged path place suite runId opened entries machine)
    (hsame : machine.SameStopwatch plain) :
    ∃ (results : List Result) (ticks : Nat) (more : List Entry) (e' : Emitter) (after : Machine),
      (runCases family cases : StateM Machine (List Result)) plain =
        (results, { plain with tickReadings := ticks }) ∧
      results.length = cases.length ∧ more.length = cases.length ∧
      e'.HasLogged path place suite runId opened (entries ++ more) after ∧
      after.SameStopwatch { plain with tickReadings := ticks } ∧
      machine.run (runCasesLogged family e cases) = (.ok (results, e'), after) := by
  induction cases generalizing machine plain entries e with
  | nil =>
    refine ⟨[], plain.tickReadings, [], e, machine, rfl, rfl, rfl, ?_, hsame, rfl⟩
    rwa [List.append_nil]
  | cons s rest ih =>
    obtain ⟨⟨result, attempt⟩, ticks, entry, e', between, hplain, hlogged, hsame', hstep⟩ :=
      run_runCasesLogged_cons_file hid h hsame family s rest
    obtain ⟨results, ticks', more, e'', after, hplain', hresults, hmore, hlogged', hsame'',
      hrest⟩ := ih hlogged hsame'
    refine ⟨result :: results, ticks', entry :: more, e'', after, ?_,
      congrArg (· + 1) hresults, congrArg (· + 1) hmore, ?_, hsame'', ?_⟩
    · rw [runCases]
      simp only [bind, StateT.bind, hplain, hplain']
      rfl
    · rwa [List.append_assoc] at hlogged'
    · rw [hstep, Machine.run_bind_of_ok hrest]
      rfl

/-- **What running fixtures with a log in a file does**: the log goes on with an acceptable entry
for each scenario, and the results are those without a log. -/
theorem run_runAllLogged_file (hid : ∀ n, IsTraceId (traceId suite runId n))
    (fixtures : List Fixture) (h : e.HasLogged path place suite runId opened entries machine)
    (hsame : machine.SameStopwatch plain) :
    ∃ (results : List Result) (ticks : Nat) (more : List Entry) (e' : Emitter) (after : Machine),
      (runAll fixtures : StateM Machine (List Result)) plain =
        (results, { plain with tickReadings := ticks }) ∧
      results.length = (fixtures.flatMap Fixture.cases).length ∧
      more.length = (fixtures.flatMap Fixture.cases).length ∧
      e'.HasLogged path place suite runId opened (entries ++ more) after ∧
      after.SameStopwatch { plain with tickReadings := ticks } ∧
      machine.run (runAllLogged e fixtures) = (.ok (results, e'), after) := by
  induction fixtures generalizing machine plain entries e with
  | nil =>
    refine ⟨[], plain.tickReadings, [], e, machine, rfl, rfl, rfl, ?_, hsame, rfl⟩
    rwa [List.append_nil]
  | cons fixture rest ih =>
    obtain ⟨results, ticks, more, e', between, hplain, hresults, hmore, hlogged, hsame', hrun⟩ :=
      run_runCasesLogged_file hid fixture.family fixture.cases h hsame
    obtain ⟨results', ticks', more', e'', after, hplain', hresults', hmore', hlogged', hsame'',
      hrest⟩ := ih hlogged hsame'
    refine ⟨results ++ results', ticks', more ++ more', e'', after, ?_, ?_, ?_, ?_, hsame'', ?_⟩
    · rw [runAll]
      simp only [Fixture.run, bind, StateT.bind, hplain, hplain']
      rfl
    · rw [List.flatMap_cons, List.length_append, List.length_append, hresults, hresults']
    · rw [List.flatMap_cons, List.length_append, List.length_append, hmore, hmore']
    · rwa [List.append_assoc] at hlogged'
    · rw [runAllLogged, runLogged, Machine.run_bind_of_ok hrun]
      show between.run (runAllLogged e' rest >>= _) = _
      rw [Machine.run_bind_of_ok hrest]
      rfl

end Fixture

end CopyTrial
