import CopyTrial.Proofs.Campaign.Entries

/-!
# Logged runs are accepted

Each scenario that is run with a log adds one line to it, and the entry in that line meets the
rules of a log, however the scenario ended. So the log of a sequence of runs has one content line
for each scenario, and no violation.

## Main definitions

* `Entry.Acceptable` — an entry can be logged and breaks no rule.

## Main results

* `Scenario.acceptable_conclude` — the entry on a scenario that was run is acceptable.
* `Fixture.run_runAllLogged` — what running fixtures adds to a log.
* `Fixture.validateText_runAllLogged` — the log of a sequence of runs is accepted.
-/

set_option autoImplicit false

namespace CopyTrial

open Json

/-- An entry can be logged and breaks no rule. -/
structure Entry.Acceptable (e : Entry) : Prop where
  loggable : e.Loggable
  faults_eq : e.faults = []

/-- An acceptable entry has a trace id. -/
theorem Entry.Acceptable.traceId_ne_empty {e : Entry} (h : e.Acceptable) : e.traceId ≠ "" := by
  intro hempty
  have hid := ((Entry.faults_eq_nil_iff e).1 h.faults_eq).1
  rw [hempty] at hid
  exact absurd hid (by decide)

/-- The line of an acceptable entry is accepted and read as the entry. -/
theorem Entry.Acceptable.validateLine_eq {e : Entry} (h : e.Acceptable) :
    validateLine e.line = .ok e := by
  rw [Entry.validateLine_line_eq h.loggable, h.faults_eq]

/-- A log of acceptable entries has a content line for each of them, and no violation. -/
theorem validateText_logText_of_acceptable {entries : List Entry}
    (h : ∀ entry ∈ entries, entry.Acceptable) :
    validateText (logText entries) = (entries.length, []) := by
  rw [validateText_logText fun entry hentry => (h entry hentry).loggable, Prod.mk.injEq,
    List.flatMap_eq_nil_iff]
  refine ⟨rfl, fun x hx => ?_⟩
  rw [(h x.1 (List.fst_mem_of_mem_zipIdx hx)).faults_eq, List.map_nil]

/-! ## The entry on a scenario -/

/-- The exit code of a verdict is 0 or 1. -/
theorem Verdict.exitCode_le_one (v : Verdict) : v.exitCode ≤ 1 := by
  cases v with
  | pass =>
    show (0 : UInt8) ≤ 1
    decide
  | fail d =>
    show (1 : UInt8) ≤ 1
    decide

/-- An entry that tells a verdict breaks no rule: it has the exit code of the verdict, and a
divergence if the verdict is failing. -/
theorem Entry.faults_eq_nil_of_verdict {e : Entry} (v : Verdict) (hid : IsTraceId e.traceId)
    (houtcome : e.outcome = some (.ofVerdict v)) (hexit : e.exitCode = some v.exitCode)
    (hdivergence : e.divergence = v.divergence.map .ofDivergence) : e.faults = [] := by
  refine (Entry.faults_eq_nil_iff e).2 ⟨hid, ?_, ?_, ?_⟩
  · rintro ⟨hfail, -, hnone⟩
    rw [houtcome] at hfail
    rw [hdivergence] at hnone
    cases v with
    | pass => cases hfail
    | fail d => cases hnone
  · rintro ⟨hsome, hfail⟩
    rw [houtcome] at hfail
    rw [hdivergence] at hsome
    cases v with
    | pass => cases hsome
    | fail d => exact hfail rfl
  · intro code hcode
    rw [hexit] at hcode
    obtain rfl := Option.some.inj hcode
    exact v.exitCode_le_one

/-- An entry that tells neither a divergence nor an exit code breaks no rule, unless it says that
a trial failed. -/
theorem Entry.faults_eq_nil_of_none {e : Entry} (hid : IsTraceId e.traceId)
    (houtcome : e.outcome ≠ some .fail) (hexit : e.exitCode = none)
    (hdivergence : e.divergence = none) : e.faults = [] := by
  refine (Entry.faults_eq_nil_iff e).2 ⟨hid, fun h => houtcome h.1, ?_, ?_⟩
  · rintro ⟨hsome, -⟩
    rw [hdivergence] at hsome
    cases hsome
  · intro code hcode
    rw [hexit] at hcode
    cases hcode

namespace Scenario

/-- **The entry on a scenario that was run is acceptable**, however it ended, if nothing is said of
an exit code or a divergence before. -/
theorem acceptable_conclude (s : Scenario) (result : Result) (attempt : Option Attempt)
    {entry : Entry} (hid : IsTraceId entry.traceId) (hexit : entry.exitCode = none)
    (hdivergence : entry.divergence = none) :
    (s.conclude result attempt entry).Acceptable := by
  refine ⟨s.loggable_conclude result attempt entry, ?_⟩
  cases attempt with
  | none => exact Entry.faults_eq_nil_of_none hid nofun hexit hdivergence
  | some attempt => exact Entry.faults_eq_nil_of_verdict attempt.verdict hid rfl rfl rfl

/-- The entry on a scenario is acceptable if its trace id is well formed. -/
theorem acceptable_record (s : Scenario) (timestamp : String) {id : String} (result : Result)
    (attempt : Option Attempt) (hid : IsTraceId id) :
    (s.record timestamp id result attempt).Acceptable :=
  s.acceptable_conclude result attempt hid rfl rfl

end Scenario

/-! ## Logs of runs -/

namespace Fixture

/-- The entries that scenarios leave are acceptable if trace ids are well formed. -/
theorem acceptable_of_leaves {family suite runId : String}
    (hid : ∀ n, IsTraceId (Emitter.traceId suite runId n)) {cases : List Scenario}
    {traces : List (Result × Entry)}
    (h : List.Forall₂ (Scenario.Leaves family suite runId) cases traces) :
    ∀ entry ∈ traces.map Prod.snd, entry.Acceptable := by
  induction h with
  | nil => exact List.forall_mem_nil _
  | @cons s trace _ _ hleaves _ ih =>
    obtain ⟨attempt, timestamp, number, -, hentry⟩ := hleaves
    have hacceptable := s.acceptable_record timestamp trace.1 attempt (hid number)
    refine List.forall_mem_cons.2 ⟨?_, ih⟩
    rw [hentry]
    exact ⟨hacceptable.loggable, hacceptable.faults_eq⟩

/-- What running fixtures one after the other adds to a log. -/
theorem run_runAllLogged (suite runId : String)
    (hid : ∀ n, IsTraceId (Emitter.traceId suite runId n)) (fixtures : List Fixture)
    (machine : Machine) (number : Nat) (logged : List Entry) :
    ∃ results entries after, (∀ entry ∈ entries, entry.Acceptable) ∧
      entries.length = (fixtures.flatMap Fixture.cases).length ∧
      machine.run (runAllLogged ⟨suite, runId, number, .memory (logText logged)⟩ fixtures) =
        (.ok (results, ⟨suite, runId, number + (fixtures.flatMap Fixture.cases).length,
          .memory (logText (logged ++ entries))⟩), after) := by
  induction fixtures generalizing machine number logged with
  | nil =>
    refine ⟨[], [], machine, by simp, rfl, ?_⟩
    rw [List.append_nil]
    rfl
  | cons fixture rest ih =>
    obtain ⟨traces, -, between, htraces, -, hrun⟩ := run_runCasesLogged
      (⟨rfl, rfl⟩ : machine.SameStopwatch machine) fixture.family suite runId fixture.cases number
      logged
    obtain ⟨more, others, after, hothers, hlength, hrest⟩ :=
      ih between (number + fixture.cases.length) (logged ++ traces.map Prod.snd)
    refine ⟨traces.map Prod.fst ++ more, traces.map Prod.snd ++ others, after,
      List.forall_mem_append.2 ⟨acceptable_of_leaves hid htraces, hothers⟩, ?_, ?_⟩
    · rw [List.flatMap_cons, List.length_append, List.length_append, List.length_map,
        htraces.length_eq, hlength]
    · rw [runAllLogged, Machine.run_bind, runLogged, hrun]
      simp only [Machine.run_bind, hrest, Machine.run_pure, List.append_assoc,
        List.flatMap_cons, List.length_append, Nat.add_assoc]

/-- **The log of a sequence of runs is accepted**: it has one content line for each scenario that
was run, and no violation. The fixtures, the machine and its clocks may be any, and so may the
emitter, if it keeps its log in memory, has not written yet, and gives out well-formed trace ids:
neither its suite nor its run holds a pair of colons, and the suite does not end with a colon where
the run starts with one.

**Proof sketch.** Each scenario adds the line of an acceptable entry to the log, and the violations
of a log are the rules that its entries break. -/
theorem validateText_runAllLogged {suite runId : String}
    (hsuite : ¬ [':', ':'] <:+: suite.toList) (hrun : ¬ [':', ':'] <:+: runId.toList)
    (hboth : ¬ (suite.toList.getLast? = some ':' ∧ runId.toList.head? = some ':'))
    (number : Nat) (fixtures : List Fixture) (machine : Machine) :
    ∃ results e text after,
      machine.run (runAllLogged ⟨suite, runId, number, .memory ""⟩ fixtures) =
        (.ok (results, e), after) ∧
      e.buffered = some text ∧
      validateText text = ((fixtures.flatMap Fixture.cases).length, []) := by
  have hid := fun n => Emitter.isTraceId_traceId hsuite hrun hboth n
  obtain ⟨results, entries, after, hentries, hlength, hlogged⟩ :=
    run_runAllLogged suite runId hid fixtures machine number []
  refine ⟨results, _, logText entries, after, hlogged, rfl, ?_⟩
  rw [validateText_logText_of_acceptable hentries, hlength]

/-- The theorem on two runs: the scenarios of the built-in fixture, and one whose primitive has no
known name. -/
theorem validateText_runAllLogged_builtin :
    ∃ results e text after,
      ({} : Machine).run (runAllLogged (Emitter.ofMemory "memcpy" "run:")
        [builtin, ⟨"v1", "other", [{ name := "a\nb", primitive := "::", expect := .pass }]⟩]) =
        (.ok (results, e), after) ∧
      e.buffered = some text ∧ validateText text = (9, []) :=
  validateText_runAllLogged (by decide) (by decide) (by decide) 0 _ _

end Fixture

end CopyTrial
