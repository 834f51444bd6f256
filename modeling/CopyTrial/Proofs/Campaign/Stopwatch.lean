import CopyTrial.Campaign.Run
import CopyTrial.Machine

/-!
# Runs by the stopwatch

What comes of a scenario depends on its primitive and on how long the trial of it takes, so a run
gives the same results on machines whose stopwatches show the same.

## Main definitions

* `Machine.SameStopwatch` — the stopwatches of two machines show the same from now on.

## Main results

* `Scenario.run_of_sameStopwatch` — a scenario uses nothing of a machine but its stopwatch.
* `Fixture.runAll_of_sameStopwatch` — fixtures use nothing else either.
-/

set_option autoImplicit false

namespace CopyTrial

/-- The stopwatches of two machines show the same from now on. -/
def Machine.SameStopwatch (machine machine' : Machine) : Prop :=
  machine.ticks = machine'.ticks ∧ machine.tickReadings = machine'.tickReadings

/-- **A scenario uses nothing of a machine but its stopwatch.** -/
theorem Scenario.run_of_sameStopwatch {machine machine' : Machine}
    (h : machine.SameStopwatch machine') (family : String) (s : Scenario) :
    ∃ outcome ticks,
      (s.run family : StateM Machine (Result × Option Attempt)) machine =
        (outcome, { machine with tickReadings := ticks }) ∧
      (s.run family : StateM Machine (Result × Option Attempt)) machine' =
        (outcome, { machine' with tickReadings := ticks }) := by
  obtain ⟨tree, wall, walls, ticks, readings, id, output, messages⟩ := machine'
  obtain ⟨rfl, rfl⟩ := h
  rw [run]
  cases Kind.read? s.primitive with
  | none => exact ⟨_, machine.tickReadings, rfl, rfl⟩
  | some kind => exact ⟨_, machine.tickReadings + 2, rfl, rfl⟩

namespace Fixture

/-- **Scenarios use nothing of a machine but its stopwatch**, one after the other. -/
theorem runCases_of_sameStopwatch {machine machine' : Machine} (h : machine.SameStopwatch machine')
    (family : String) (cases : List Scenario) :
    ∃ results ticks,
      (runCases family cases : StateM Machine (List Result)) machine =
        (results, { machine with tickReadings := ticks }) ∧
      (runCases family cases : StateM Machine (List Result)) machine' =
        (results, { machine' with tickReadings := ticks }) ∧ results.length = cases.length := by
  induction cases generalizing machine machine' with
  | nil => exact ⟨[], machine.tickReadings, rfl, by rw [h.2]; rfl, rfl⟩
  | cons s rest ih =>
    obtain ⟨outcome, ticks, hrun, hrun'⟩ := s.run_of_sameStopwatch h family
    obtain ⟨results, ticks', hrest, hrest', hlength⟩ := ih
      (⟨h.1, rfl⟩ : Machine.SameStopwatch { machine with tickReadings := ticks }
        { machine' with tickReadings := ticks })
    refine ⟨outcome.1 :: results, ticks', ?_, ?_, congrArg (· + 1) hlength⟩
    · rw [runCases]
      simp only [bind, StateT.bind, hrun, hrest]
      rfl
    · rw [runCases]
      simp only [bind, StateT.bind, hrun', hrest']
      rfl

/-- **Fixtures use nothing of a machine but its stopwatch.** There is a result for each scenario. -/
theorem runAll_of_sameStopwatch {machine machine' : Machine} (h : machine.SameStopwatch machine')
    (fixtures : List Fixture) :
    ∃ results ticks,
      (runAll fixtures : StateM Machine (List Result)) machine =
        (results, { machine with tickReadings := ticks }) ∧
      (runAll fixtures : StateM Machine (List Result)) machine' =
        (results, { machine' with tickReadings := ticks }) ∧
      results.length = (fixtures.flatMap Fixture.cases).length := by
  induction fixtures generalizing machine machine' with
  | nil => exact ⟨[], machine.tickReadings, rfl, by rw [h.2]; rfl, rfl⟩
  | cons fixture rest ih =>
    obtain ⟨results, ticks, hrun, hrun', hlength⟩ :=
      runCases_of_sameStopwatch h fixture.family fixture.cases
    obtain ⟨more, ticks', hrest, hrest', hmore⟩ := ih
      (⟨h.1, rfl⟩ : Machine.SameStopwatch { machine with tickReadings := ticks }
        { machine' with tickReadings := ticks })
    refine ⟨results ++ more, ticks', ?_, ?_, ?_⟩
    · rw [runAll]
      simp only [Fixture.run, bind, StateT.bind, hrun, hrest]
      rfl
    · rw [runAll]
      simp only [Fixture.run, bind, StateT.bind, hrun', hrest']
      rfl
    · rw [List.flatMap_cons, List.length_append, List.length_append, hlength, hmore]

end Fixture

end CopyTrial
