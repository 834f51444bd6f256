import CopyTrial.Proofs.Campaign.Stopwatch
import CopyTrial.Proofs.Log.History

/-!
# What a logged run leaves

A scenario that is run with a log ends as it does without one, and an entry that says how it ended
is added to the log. So a logged run leaves the results of the plain run, and one entry for each
scenario.

## Main definitions

* `Scenario.Ends` — how a scenario can end.
* `Scenario.record` — the entry on a scenario that was run.
* `Scenario.Leaves` — the result and the entry of a scenario that was run with a log.

## Main results

* `Scenario.loggable_conclude` — the entry on a scenario that was run can be logged.
* `Fixture.run_runCasesLogged_of_run` — what running one scenario with a log does.
* `Fixture.run_runCasesLogged` — what running the scenarios of a fixture adds to a log, and what
  results it gives.
-/

set_option autoImplicit false

namespace CopyTrial

open Json

/-! ## The end of a scenario -/

/-- How a scenario can end: without an attempt if its primitive has no known name, and else with
the attempt of the primitive, some time later. -/
inductive Scenario.Ends (family : String) (s : Scenario) : Result → Option Attempt → Prop
  | unresolved (h : Kind.read? s.primitive = none) : Ends family s (.unresolved family s) none
  | tried {kind : Kind} (h : Kind.read? s.primitive = some kind) (duration : UInt64) :
      Ends family s (.ofAttempt family s (s.attempt kind) duration) (some (s.attempt kind))

/-- **A scenario that is run ends** in one of these ways. -/
theorem Scenario.ends_of_run {machine after : Machine} {family : String} {s : Scenario}
    {result : Result} {attempt : Option Attempt}
    (h : (s.run family : StateM Machine (Result × Option Attempt)) machine =
      ((result, attempt), after)) : s.Ends family result attempt := by
  rw [run] at h
  cases hkind : Kind.read? s.primitive with
  | none =>
    rw [hkind] at h
    cases h
    exact .unresolved hkind
  | some kind =>
    rw [hkind] at h
    cases h
    exact .tried hkind _

/-! ## The entry on a scenario -/

/-- The document of an expectation is plain, and nested at most twice. -/
theorem Expectation.plain_write (x : Expectation) :
    (Expectation.codec.write x).Plain ∧ (Expectation.codec.write x).depth ≤ 2 := by
  cases x with
  | pass => exact ⟨.text _, by decide⟩
  | fail r =>
    refine ⟨.object (List.forall_mem_cons.2 ⟨(Entry.holds_divergence r).1, by simp⟩), ?_⟩
    exact Nat.le_refl 2

/-- Details that are made of plain documents survive being written. -/
theorem survives_detailsOf {members : List (String × Json)}
    (h : ∀ m ∈ members, m.2.Plain ∧ m.2.depth ≤ 125) :
    (detailsOf members).json ≠ .null ∧ (detailsOf members).json.DoubleFree ∧
      (detailsOf members).json.depth ≤ 126 := by
  have hplain : (Json.object members).Plain := .object fun m hm => (h m hm).1
  have hdepth : (Json.object members).depth ≤ 126 :=
    Nat.succ_le_succ (depthMembers_le_iff.2 fun m hm => (h m hm).2)
  exact ⟨nofun, hplain.canonical_doubleFree, Nat.le_trans hplain.depth_canonical_le hdepth⟩

namespace Scenario

/-- The details of the entry on a scenario survive being written. -/
theorem loggable_conclude (s : Scenario) (result : Result) (attempt : Option Attempt)
    (entry : Entry) : (s.conclude result attempt entry).Loggable := by
  obtain ⟨hplain, hdepth⟩ := s.expect.plain_write
  have hexpected : (Expectation.codec.write s.expect).Plain ∧
      (Expectation.codec.write s.expect).depth ≤ 125 := ⟨hplain, Nat.le_trans hdepth (by decide)⟩
  intro v hv
  cases attempt with
  | some attempt =>
    obtain rfl := Option.some.inj hv
    apply survives_detailsOf
    simp only [List.forall_mem_cons]
    exact ⟨hexpected, ⟨.boolean _, Nat.zero_le _⟩, by simp⟩
  | none =>
    obtain rfl := Option.some.inj hv
    apply survives_detailsOf
    simp only [List.forall_mem_cons]
    exact ⟨hexpected, ⟨.text _, Nat.zero_le _⟩, by simp⟩

/-- The entry on a scenario that was run, made at some moment. -/
def record (s : Scenario) (timestamp id : String) (result : Result) (attempt : Option Attempt) :
    Entry :=
  s.conclude result attempt
    { timestamp, traceId := id, level := if result.passed then .info else .error
      event := "scenario_result"
      scenario := some s.name
      fill := some s.fill
      duration := some result.duration }

/-- The entry on a scenario has the trace id that it was made with. -/
theorem traceId_record (s : Scenario) (timestamp id : String) (result : Result)
    (attempt : Option Attempt) : (s.record timestamp id result attempt).traceId = id := by
  cases attempt <;> rfl

/-- Making the entry on a scenario takes a reading of the wall clock. -/
theorem run_entry (machine : Machine) (id : String) (s : Scenario) (result : Result)
    (attempt : Option Attempt) :
    (s.entry id result attempt : StateM Machine Entry) machine =
      (s.record (machine.wall machine.wallReadings).timestamp id result attempt,
        machine.readClocks (machine.wallReadings + 1) machine.tickReadings) := rfl

/-- A result and an entry that are left by a scenario which is run with a log: the scenario ended
with the result, and the entry says so. -/
def Leaves (family suite runId : String) (s : Scenario) (trace : Result × Entry) : Prop :=
  ∃ (attempt : Option Attempt) (timestamp : String) (number : Nat),
    s.Ends family trace.1 attempt ∧
      trace.2 = { s.record timestamp (Emitter.traceId suite runId number) trace.1 attempt with
        suite := some suite }

/-- The entry that a scenario leaves can be logged. -/
theorem Leaves.loggable {family suite runId : String} {s : Scenario} {trace : Result × Entry}
    (h : s.Leaves family suite runId trace) : trace.2.Loggable := by
  obtain ⟨attempt, timestamp, number, -, hentry⟩ := h
  rw [hentry]
  exact s.loggable_conclude trace.1 attempt _

end Scenario

/-! ## Logged runs -/

namespace Fixture

/-- **What running one scenario with a log does**: the scenario is run as it is without a log, the
entry on it is emitted with the next trace id, and the others are run next. -/
theorem run_runCasesLogged_of_run {machine between : Machine} {family : String} {s : Scenario}
    {result : Result} {attempt : Option Attempt}
    (h : (s.run family : StateM Machine (Result × Option Attempt)) machine =
      ((result, attempt), between)) (e : Emitter) (rest : List Scenario) :
    machine.run (runCasesLogged family e (s :: rest)) =
      (between.readClocks (between.wallReadings + 1) between.tickReadings).run (do
        let e ← e.nextTraceId.2.emitEntry (s.record (between.wall between.wallReadings).timestamp
          e.nextTraceId.1 result attempt)
        let (results, e) ← runCasesLogged family e rest
        pure (result :: results, e)) := by
  rw [runCasesLogged, Machine.run_bind_lift h]
  exact Machine.run_bind_lift (s.run_entry between e.nextTraceId.1 result attempt) _

/-- What running one scenario adds to a log in memory: the entry that it leaves. The stopwatch goes
on as it does without a log. -/
theorem run_runCasesLogged_cons {machine plain : Machine} (hsame : machine.SameStopwatch plain)
    (family suite runId : String) (number : Nat) (logged : List Entry) (s : Scenario)
    (rest : List Scenario) :
    ∃ (result : Result) (attempt : Option Attempt) (entry : Entry) (ticks : Nat) (after : Machine),
      s.Leaves family suite runId (result, entry) ∧
      (s.run family : StateM Machine (Result × Option Attempt)) plain =
        ((result, attempt), { plain with tickReadings := ticks }) ∧
      after.SameStopwatch { plain with tickReadings := ticks } ∧
      machine.run
          (runCasesLogged family ⟨suite, runId, number, .memory (logText logged)⟩ (s :: rest)) =
        after.run (do
          let (results, e) ← runCasesLogged family
            ⟨suite, runId, number + 1, .memory (logText (logged ++ [entry]))⟩ rest
          pure (result :: results, e)) := by
  obtain ⟨⟨result, attempt⟩, ticks, hrun, hplain⟩ := s.run_of_sameStopwatch hsame family
  let id := Emitter.traceId suite runId (number + 1)
  let entry := s.record (machine.wall machine.wallReadings).timestamp id result attempt
  have hid : entry.traceId ≠ "" := by
    rw [s.traceId_record]
    exact Emitter.traceId_ne_empty suite runId (number + 1)
  have hsuite : { entry with suite := entry.suite.or (some suite) } =
      { entry with suite := some suite } := by
    cases attempt <;> rfl
  refine ⟨result, attempt, { entry with suite := some suite }, ticks,
    machine.readClocks (machine.wallReadings + 1) ticks,
    ⟨attempt, _, number + 1, Scenario.ends_of_run hrun, rfl⟩, hplain, ⟨hsame.1, rfl⟩, ?_⟩
  rw [run_runCasesLogged_of_run hrun, ← hsuite]
  exact Machine.run_bind_of_ok
    (Emitter.run_emitEntry_memory _ suite runId (number + 1) logged hid) _

/-- **What running the scenarios of a fixture with a log in memory does**: each of them leaves a
result and an entry, the results are those of the run without a log, and the entries are added to
the log.

**Proof sketch.** Induction on the scenarios. The first one adds its line and leaves an emitter of
the same kind to the others; the stopwatch stays that of the machine on which nothing is logged. -/
theorem run_runCasesLogged {machine plain : Machine} (hsame : machine.SameStopwatch plain)
    (family suite runId : String) (cases : List Scenario) (number : Nat) (logged : List Entry) :
    ∃ (traces : List (Result × Entry)) (ticks : Nat) (after : Machine),
      List.Forall₂ (Scenario.Leaves family suite runId) cases traces ∧
      (runCases family cases : StateM Machine (List Result)) plain =
        (traces.map Prod.fst, { plain with tickReadings := ticks }) ∧
      machine.run (runCasesLogged family ⟨suite, runId, number, .memory (logText logged)⟩ cases) =
        (.ok (traces.map Prod.fst, ⟨suite, runId, number + cases.length,
          .memory (logText (logged ++ traces.map Prod.snd))⟩), after) := by
  induction cases generalizing machine plain number logged with
  | nil =>
    refine ⟨[], plain.tickReadings, machine, .nil, rfl, ?_⟩
    rw [List.map_nil, List.map_nil, List.append_nil]
    rfl
  | cons s rest ih =>
    obtain ⟨result, attempt, entry, ticks, between, hleaves, hplain, hsame', hstep⟩ :=
      run_runCasesLogged_cons hsame family suite runId number logged s rest
    obtain ⟨traces, ticks', after, htraces, hplain', hrest⟩ :=
      ih hsame' (number + 1) (logged ++ [entry])
    refine ⟨(result, entry) :: traces, ticks', after, .cons hleaves htraces, ?_, ?_⟩
    · rw [runCases]
      simp only [bind, StateT.bind, hplain, hplain']
      rfl
    · rw [hstep, Machine.run_bind_of_ok hrest]
      simp only [Machine.run_pure, List.map_cons, List.append_assoc, List.singleton_append,
        List.length_cons, Nat.add_assoc, Nat.add_comm 1]

end Fixture

end CopyTrial
