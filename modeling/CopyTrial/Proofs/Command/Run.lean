import CopyTrial.Proofs.Command.Log
import CopyTrial.Proofs.FirstDivergence

/-!
# The command for one trial

The command either refuses to start, with exit code 2 and without output, or carries out the trial
and tells the verdict by its exit code, by the diagnostic line if there is a divergence, and by the
second of two entries in the log.

## Main definitions

* `RunOptions.Refused` — the command cannot start.
* `Trial.LoggedIn` — a log tells a trial and its verdict.

## Main results

* `RunOptions.run_of_stages` — the stages of a trial with a log.
* `RunOptions.run_of_some_log`, `RunOptions.run_of_no_log` — what a trial does to a machine.
* `Command.perform_run` — the three ways in which the command ends.
-/

set_option autoImplicit false

namespace CopyTrial

open FileTree Emitter

/-! ## The trial and its entry -/

/-- What is printed of a verdict: the diagnostic line if it is failing. -/
def Verdict.report : Verdict → Bytes
  | .pass => []
  | .fail d => d.diagnosticLine

/-- A primitive has the name of its kind. -/
theorem Kind.name_primitive (kind : Kind) : kind.primitive.name = kind.label := by
  cases kind <;> rfl

/-- A trial that reports prints what there is to print of its verdict. -/
theorem Trial.run_runReporting (t : Trial) (p : Primitive) (machine : Machine) :
    machine.run (t.runReporting p : ExceptT IoError (StateM Machine) Verdict) =
      (.ok (t.verdict p), machine.print (t.verdict p).report "") := by
  rw [runReporting]
  cases t.verdict p with
  | pass => rw [Verdict.report, Machine.print_nil, Machine.run_pure]
  | fail d => rw [Verdict.report, Machine.run_bind_of_ok (machine.run_print _), Machine.run_pure]

/-- The entry on a trial says what was tried and what the verdict is. -/
structure Trial.Tells (t : Trial) (kind : Kind) (verdict : Verdict) (entry : Entry) : Prop where
  primitive_eq : entry.primitive = some kind.label
  size_eq : entry.size = some (UInt64.ofNat (t.literal.length + 1))
  fill_eq : entry.fill = some t.fill
  exitCode_eq : entry.exitCode = some verdict.exitCode
  outcome_eq : entry.outcome = some (.ofVerdict verdict)
  divergence_eq : entry.divergence = verdict.divergence.map .ofDivergence

/-- What making the entry on a trial gives on a machine. -/
theorem Trial.exists_entry_eq (t : Trial) (kind : Kind) (verdict : Verdict) (duration : UInt64)
    (machine : Machine) :
    ∃ entry, (t.entry kind.primitive verdict duration : StateM Machine Entry) machine =
        (entry, machine.readClocks (machine.wallReadings + 1) machine.tickReadings) ∧
      entry.traceId = "" ∧ entry.Loggable ∧ t.Tells kind verdict entry := by
  refine ⟨_, rfl, rfl, ?_, congrArg some kind.name_primitive, ?_, rfl, rfl, rfl, rfl⟩
  · intro v hv
    cases verdict with
    | pass => cases hv
    | fail d =>
      obtain rfl := Option.some.inj hv
      apply survives_detailsOf
      simp only [List.forall_mem_cons]
      exact ⟨⟨.text _, Nat.zero_le _⟩, by simp⟩
  · simp [source]

/-- A log tells a trial and its verdict: it has two lines, which are accepted and numbered 1 and 2,
and the second one holds the entry on the trial. -/
def Trial.LoggedIn (t : Trial) (kind : Kind) (verdict : Verdict) (runId : String)
    (content : Bytes) : Prop :=
  ∃ start result : Entry,
    content = Bytes.ofText (logText [start, result]) ∧
    Text.lines (logText [start, result]) = [start.line, result.line] ∧
    validateText (logText [start, result]) = (2, []) ∧
    validateLine start.line = .ok start ∧ validateLine result.line = .ok result ∧
    start.traceId = traceId "run" runId 1 ∧ result.traceId = traceId "run" runId 2 ∧
    t.Tells kind verdict result

namespace RunOptions

variable {options : RunOptions} {variableValue : Option String} {machine : Machine} {kind : Kind}
  {fill : UInt8} {log : String}

/-- The trial that is asked for, with a fill. -/
def trial (options : RunOptions) (fill : UInt8) : Trial :=
  ⟨Bytes.ofText (options.source.getD helloWorld), fill⟩

/-! ## Refusals -/

/-- The command cannot start: the primitive or the fill is not known, or the log that is to be used
cannot be opened. -/
def Refused (options : RunOptions) (variableValue : Option String) (machine : Machine) : Prop :=
  Kind.read? options.primitive = none ∨ Fill.read? options.fill = none ∨
    ∃ log, chosenLog options.log variableValue = some log ∧ ¬ machine.CanCreate log

/-- Nothing is done with a primitive that is not known. -/
theorem run_of_unknown_primitive (h : Kind.read? options.primitive = none) :
    machine.run (options.run variableValue) =
      (.error (.unknownPrimitive options.primitive), machine) := by
  rw [run, h]
  rfl

/-- Nothing is done with a fill that is not known. -/
theorem run_of_invalid_fill (hkind : Kind.read? options.primitive = some kind)
    (h : Fill.read? options.fill = none) :
    machine.run (options.run variableValue) = (.error (.invalidFill options.fill), machine) := by
  rw [run, hkind, h]
  rfl

/-- Nothing is copied if the log cannot be opened. -/
theorem run_of_not_canCreate (hkind : Kind.read? options.primitive = some kind)
    (hfill : Fill.read? options.fill = some fill)
    (hlog : chosenLog options.log variableValue = some log) (h : ¬ machine.CanCreate log) :
    ∃ e tree, GrowsAlong (Path.Above log) machine.tree tree ∧
      machine.run (options.run variableValue) =
        (.error (.logNotOpened log e), { machine with tree }) := by
  obtain ⟨e, tree, hgrows, hopen⟩ := run_openLog_of_not_canCreate h "run"
  refine ⟨e, tree, hgrows, ?_⟩
  rw [run, hkind, hfill, hlog]
  show machine.run (openLog? (some log) "run" >>= _) = _
  exact Machine.run_bind_of_error (Machine.run_map_of_error hopen some) _

/-! ## Trials -/

/-- **A trial without a log** only prints what there is to print of its verdict. -/
theorem run_of_no_log (hkind : Kind.read? options.primitive = some kind)
    (hfill : Fill.read? options.fill = some fill)
    (hlog : chosenLog options.log variableValue = none) :
    machine.run (options.run variableValue) =
      (.ok ((options.trial fill).verdict kind.primitive).exitCode,
        (machine.print ((options.trial fill).verdict kind.primitive).report "").readClocks
          machine.wallReadings (machine.tickReadings + 2)) := by
  rw [run, hkind, hfill, hlog]
  show (machine.readClocks machine.wallReadings (machine.tickReadings + 1)).run
    (((options.trial fill).runReporting kind.primitive).adapt Failure.stream >>= _) = _
  rw [Machine.run_bind_of_ok (Machine.run_adapt_of_ok (Trial.run_runReporting ..) _)]
  rfl

/-- The machine after a trial: the stopwatch was read twice, and the verdict was reported. -/
def tried (started : Machine) (verdict : Verdict) : Machine :=
  (started.print verdict.report "").readClocks started.wallReadings (started.tickReadings + 2)

/-- **A trial with a log goes through stages**: the log is opened, the first entry is logged, the
trial is run, and the entry on it is made, logged and flushed. -/
theorem run_of_stages (hkind : Kind.read? options.primitive = some kind)
    (hfill : Fill.read? options.fill = some fill)
    (hlog : chosenLog options.log variableValue = some log) {verdict : Verdict}
    (hverdict : (options.trial fill).verdict kind.primitive = verdict)
    {opened started stamped after : Machine} {e e' : Emitter} {start entry : Entry}
    (hopen : machine.run (openLog log "run") = (.ok e, opened))
    (hemit : opened.run (e.emit .debug "harness_start" :
      ExceptT IoError (StateM Machine) (Entry × Emitter)) = (.ok (start, e'), started))
    (hentry : ((options.trial fill).entry kind.primitive verdict
        (elapsed (started.ticks started.tickReadings) (started.ticks (started.tickReadings + 1))) :
      StateM Machine Entry) (tried started verdict) = (entry, stamped))
    (hfinish : stamped.run (do
        let e ← e'.emitEntry entry
        let _ ← e.flush : ExceptT IoError (StateM Machine) Unit) = (.ok (), after)) :
    machine.run (options.run variableValue) = (.ok verdict.exitCode, after) := by
  have hstart := Machine.run_map_of_ok
    (Machine.run_adapt_of_ok (Machine.run_map_of_ok hemit Prod.snd) Failure.stream) some
  have htrial := Trial.run_runReporting (options.trial fill) kind.primitive
    (started.readClocks started.wallReadings (started.tickReadings + 1))
  rw [hverdict] at htrial
  have hbegun : (Clock.stopwatch : StateM Machine Int) started =
      (started.ticks started.tickReadings,
        started.readClocks started.wallReadings (started.tickReadings + 1)) := rfl
  have hended : (Clock.stopwatch : StateM Machine Int) ((started.readClocks started.wallReadings
      (started.tickReadings + 1)).print verdict.report "") =
        (started.ticks (started.tickReadings + 1), tried started verdict) := rfl
  rw [run, hkind, hfill, hlog]
  show machine.run (some <$> openLog log "run" >>= _) = _
  rw [Machine.run_bind_of_ok (Machine.run_map_of_ok hopen some)]
  show opened.run (some <$> (Prod.snd <$> e.emit .debug "harness_start").adapt Failure.stream >>=
    _) = _
  rw [Machine.run_bind_of_ok hstart, ← trial, Machine.run_bind_lift hbegun,
    Machine.run_bind_of_ok (Machine.run_adapt_of_ok htrial _), Machine.run_bind_lift hended]
  exact (Machine.run_bind_lift hentry _).trans
    (Machine.run_bind_of_ok (Machine.run_adapt_of_ok hfinish Failure.stream) _)

/-- **A trial with a log** prints what there is to print of its verdict, and the log tells it. -/
theorem run_of_some_log (hkind : Kind.read? options.primitive = some kind)
    (hfill : Fill.read? options.fill = some fill)
    (hlog : chosenLog options.log variableValue = some log) (hopen : machine.CanCreate log) :
    ∃ content after,
      machine.run (options.run variableValue) =
        (.ok ((options.trial fill).verdict kind.primitive).exitCode, after) ∧
      after.output = machine.output ++ ((options.trial fill).verdict kind.primitive).report ∧
      after.tree.read log = .ok content ∧
      (options.trial fill).LoggedIn kind ((options.trial fill).verdict kind.primitive)
        machine.runName content := by
  have hids : ∀ n, IsTraceId (traceId "run" machine.runName n) :=
    isTraceId_runName (by decide) machine
  obtain ⟨tree, place, e, -, -, -, hrun, hlogged⟩ := run_openLog hopen "run"
  -- the first entry
  obtain ⟨start, e', wall, held, hemit, hlogged⟩ :=
    hlogged.run_emit (hids _) .debug "harness_start"
  obtain ⟨started, hstarted⟩ : ∃ started, started =
      ((({ machine with tree } : Machine).putFile place []).readClocks wall
        machine.tickReadings).putFile place held := ⟨_, rfl⟩
  have hemit : _ = (Except.ok (start, e'), started) := hstarted ▸ hemit
  have hlogged : HasLogged log place "run" machine.runName _ [start] e' started :=
    hstarted ▸ hlogged
  -- the trial, and the entry on it
  obtain ⟨verdict, hverdict⟩ : ∃ verdict, (options.trial fill).verdict kind.primitive = verdict :=
    ⟨_, rfl⟩
  obtain ⟨entry, hentry, hempty, hloggable, htells⟩ :=
    (options.trial fill).exists_entry_eq kind verdict
      (elapsed (started.ticks started.tickReadings) (started.ticks (started.tickReadings + 1)))
      (tried started verdict)
  have hacceptable : Entry.Acceptable { entry with
      traceId := traceId "run" machine.runName 2
      suite := entry.suite.or (some "run") } :=
    ⟨hloggable, Entry.faults_eq_nil_of_verdict verdict (hids 2) htells.outcome_eq htells.exitCode_eq
      htells.divergence_eq⟩
  obtain ⟨_, after, hafter, hfinish, hlocate, -⟩ := (hlogged.print verdict.report "").run_finish
    (started.wallReadings + 1) (started.tickReadings + 2) hempty rfl hacceptable
  rw [hverdict]
  refine ⟨_, after, run_of_stages hkind hfill hlog hverdict hrun hemit hentry hfinish, ?_,
    read_of_locate hlocate, start, _, rfl, lines_logText _, ?_, ?_, hacceptable.validateLine_eq, ?_,
    rfl, ?_⟩
  · rw [hafter, hstarted]
    rfl
  · refine validateText_logText_of_acceptable
      (List.forall_mem_cons.2 ⟨?_, by simpa using hacceptable⟩)
    exact hlogged.acceptable start (by simp)
  · exact (hlogged.acceptable start (by simp)).validateLine_eq
  · simpa using hlogged.traceIds
  · exact ⟨htells.primitive_eq, htells.size_eq, htells.fill_eq, htells.exitCode_eq,
      htells.outcome_eq, htells.divergence_eq⟩

end RunOptions

/-! ## How the command ends -/

namespace Command

/-- A command for one trial is carried out by running the trial. -/
theorem execute_run (options : RunOptions) (variableValue : Option String) :
    ((run options).execute variableValue : ExceptT Failure (StateM Machine) UInt8) =
      options.run variableValue := rfl

end Command

end CopyTrial
