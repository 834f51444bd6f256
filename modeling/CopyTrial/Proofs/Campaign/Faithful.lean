import CopyTrial.Proofs.Campaign.Entries
import CopyTrial.Proofs.Log.Means

/-!
# Logs tell what results tell

The result of a scenario and the entry on it are made from the same attempt, by different means.
The entry tells the verdict of the result, and what else the two have in common.

## Main definitions

* `Entry.Records` — an entry tells of a scenario what its result does.

## Main results

* `Scenario.Leaves.records` — the entry that a scenario leaves tells what its result does.
* `Fixture.runLogged_faithful` — a logged run gives the results of the plain one, and each line of
  the log is read as an entry that tells what the result does.
-/

set_option autoImplicit false

namespace CopyTrial

open Json

/-- An entry tells of a scenario what its result does: the entry has the name, the fill and the
duration, its level is that of information exactly if the result passed, and it has the verdict
that was observed. Where none was, it is an error, and its details hold the note. -/
structure Entry.Records (e : Entry) (s : Scenario) (r : Result) : Prop where
  scenario_eq : e.scenario = some s.name ∧ r.scenario = s.name
  fill_eq : e.fill = some s.fill
  duration_eq : e.duration = some r.duration
  level_eq_info_iff : e.level = .info ↔ r.passed = true
  of_none : r.observed = none →
    e.outcome = some .error ∧ e.primitive = none ∧ e.size = none ∧ e.exitCode = none ∧
      e.divergence = none ∧ ∃ note details, r.note = some note ∧ e.details = some details ∧
        details.json.member? "error" = some (.text note)
  of_pass : r.observed = some .pass →
    e.outcome = some .pass ∧ e.exitCode = some 0 ∧ e.divergence = none
  of_fail : ∀ d, r.observed = some (.fail d) →
    e.outcome = some .fail ∧ e.exitCode = some 1 ∧ e.divergence = some d
  of_some : ∀ verdict, r.observed = some verdict →
    e.primitive = some s.primitive ∧ e.size = some (UInt64.ofNat (s.source.utf8ByteSize + 1))

/-! ## The entry and the result of a scenario -/

/-- A text has as many bytes as its encoding. -/
theorem Bytes.length_ofText (s : String) : (Bytes.ofText s).length = s.utf8ByteSize := rfl

/-- The buffers of a scenario hold its source and a zero byte. -/
theorem Scenario.size_attempt (s : Scenario) (kind : Kind) :
    (s.attempt kind).size = UInt64.ofNat (s.source.utf8ByteSize + 1) := by
  rw [attempt, trial, Trial.source, List.length_append, Bytes.length_ofText]
  rfl

/-- The members of details are those that they were made from, in canonical form. -/
theorem member?_detailsOf (name : String) {members : List (String × Json)}
    (h : (members.map Prod.fst).Nodup) :
    (detailsOf members).json.member? name = (members.lookup name).map canonical :=
  lookup_canonicalMembers name h

/-- The level of an entry is that of information exactly if the result passed. -/
theorem Level.ofPassed_eq_info_iff (passed : Bool) :
    (if passed then Level.info else Level.error) = .info ↔ passed = true := by
  cases passed <;> simp

/-- The outcome, the exit code and the divergence of a verdict that is observed as passing. -/
theorem Verdict.told_of_pass {v : Verdict} (h : Expectation.ofVerdict v = .pass) :
    Outcome.ofVerdict v = .pass ∧ v.exitCode = 0 ∧ v.divergence = none := by
  cases v with
  | pass => exact ⟨rfl, rfl, rfl⟩
  | fail d => cases h

/-- The outcome, the exit code and the divergence of a verdict that is observed as failing. -/
theorem Verdict.told_of_fail {v : Verdict} {r : DivergenceRecord}
    (h : Expectation.ofVerdict v = .fail r) :
    Outcome.ofVerdict v = .fail ∧ v.exitCode = 1 ∧
      v.divergence.map DivergenceRecord.ofDivergence = some r := by
  cases v with
  | pass => cases h
  | fail d => exact ⟨rfl, rfl, congrArg some (Expectation.fail.inj h)⟩

/-- **The entry on a scenario tells what its result does**, whichever way the scenario ended.

**Proof sketch.** The entry takes its verdict from the attempt, and so does the result, whose note
says why if there was no attempt. -/
theorem Scenario.Ends.records {family : String} {s : Scenario} {result : Result}
    {attempt : Option Attempt} (h : s.Ends family result attempt) (timestamp id : String)
    (suite : Option String) :
    Entry.Records { s.record timestamp id result attempt with suite } s result := by
  cases h with
  | unresolved hkind =>
    refine ⟨⟨rfl, rfl⟩, rfl, rfl, Level.ofPassed_eq_info_iff false, fun _ => ?_, nofun, nofun,
      nofun⟩
    refine ⟨rfl, rfl, rfl, rfl, rfl, _, _, rfl, rfl, ?_⟩
    rw [member?_detailsOf "error" (by simp)]
    rfl
  | @tried kind hkind duration =>
    refine ⟨⟨rfl, rfl⟩, rfl, rfl, Level.ofPassed_eq_info_iff _, nofun, fun hpass => ?_,
      fun r hfail => ?_, fun _ _ => ⟨rfl, congrArg some (s.size_attempt kind)⟩⟩
    · obtain ⟨houtcome, hexit, hdivergence⟩ := Verdict.told_of_pass (Option.some.inj hpass)
      exact ⟨congrArg some houtcome, congrArg some hexit, congrArg (Option.map _) hdivergence⟩
    · obtain ⟨houtcome, hexit, hdivergence⟩ := Verdict.told_of_fail (Option.some.inj hfail)
      exact ⟨congrArg some houtcome, congrArg some hexit, hdivergence⟩

/-- The entry that a scenario leaves tells what its result does. -/
theorem Scenario.Leaves.records {family suite runId : String} {s : Scenario}
    {trace : Result × Entry} (h : s.Leaves family suite runId trace) :
    trace.2.Records s trace.1 := by
  obtain ⟨attempt, timestamp, number, hends, hentry⟩ := h
  rw [hentry]
  exact hends.records timestamp _ _

/-! ## The lines of a logged run -/

/-- Lists that are related element by element are so at each index. -/
theorem related_getElem? {α β : Type} {R : α → β → Prop} {as : List α} {bs : List β}
    (h : List.Forall₂ R as bs) {k : Nat} {a : α} {b : β} (ha : as[k]? = some a)
    (hb : bs[k]? = some b) : R a b := by
  obtain ⟨hlt, rfl⟩ := List.getElem?_eq_some_iff.1 ha
  obtain ⟨hlt', rfl⟩ := List.getElem?_eq_some_iff.1 hb
  exact h.get hlt hlt'

namespace Fixture

/-- **A logged run gives the results of the plain one, and its log tells them.** The emitter is a
new one that keeps its log in memory, and the stopwatch shows the same in both runs; wall clocks,
and whatever else there is, may differ. Then there is a line for each scenario, and each is read as
an entry that tells of the scenario what its result does.

**Proof sketch.** Each scenario leaves a result and an entry that was made from the same attempt,
and the lines of the log are those of the entries. -/
theorem runLogged_faithful (f : Fixture) (suite runId : String) {machine plain : Machine}
    (h : machine.SameStopwatch plain) :
    ∃ results e text after,
      machine.run (f.runLogged (Emitter.ofMemory suite runId)) = (.ok (results, e), after) ∧
      ((f.run : StateM Machine (List Result)) plain).1 = results ∧
      e.buffered = some text ∧
      results.length = f.cases.length ∧ (Text.lines text).length = f.cases.length ∧
      ∀ (k : Nat) (s : Scenario) (r : Result) (line : String), f.cases[k]? = some s →
        results[k]? = some r → (Text.lines text)[k]? = some line →
        ∃ entry, Entry.codec.parse line = .ok entry ∧ entry.Records s r := by
  obtain ⟨traces, ticks, after, htraces, hplain, hrun⟩ :=
    run_runCasesLogged h f.family suite runId f.cases 0 []
  refine ⟨traces.map Prod.fst, _, logText (traces.map Prod.snd), after, hrun, ?_, rfl, ?_, ?_, ?_⟩
  · rw [Fixture.run, hplain]
  · rw [List.length_map, htraces.length_eq]
  · rw [lines_logText, List.length_map, List.length_map, htraces.length_eq]
  · intro k s r line hs hr hline
    rw [lines_logText, List.getElem?_map, List.getElem?_map] at hline
    rw [List.getElem?_map, Option.map_eq_some_iff] at hr
    obtain ⟨trace, htrace, rfl⟩ := hr
    rw [htrace] at hline
    obtain rfl := Option.some.inj hline
    have hleaves := related_getElem? htraces hs htrace
    exact ⟨trace.2, Entry.parse_line hleaves.loggable, hleaves.records⟩

/-- Two scenarios: one whose primitive has no known name, and one that fails as expected. -/
def unknownAndNoop : Fixture where
  version := "v1"
  family := "mixed"
  cases :=
    [{ name := "un\nknown", primitive := "nonesuch", expect := .pass },
      { name := "noop", primitive := "noop", source := "h", expect := failing 0 0 'h' }]

/-- The theorem on two scenarios, with another wall clock for the run that is logged. -/
theorem runLogged_faithful_unknownAndNoop :
    ∃ results e text after,
      ({ wall := fun n => ⟨n, 0⟩ } : Machine).run
          (unknownAndNoop.runLogged (Emitter.ofMemory "" "::")) = (.ok (results, e), after) ∧
      ((unknownAndNoop.run : StateM Machine (List Result)) {}).1 = results ∧
      e.buffered = some text ∧
      ∃ line line' unknown noop, Text.lines text = [line, line'] ∧
        Entry.codec.parse line = .ok unknown ∧ unknown.outcome = some .error ∧
        Entry.codec.parse line' = .ok noop ∧ noop.level = .info ∧
          noop.divergence = some ⟨0, 0, 104⟩ := by
  have hsame : ({ wall := fun n => ⟨n, 0⟩ } : Machine).SameStopwatch {} := ⟨rfl, rfl⟩
  obtain ⟨results, e, text, after, hrun, hplain, htext, -, hlength, hlines⟩ :=
    runLogged_faithful unknownAndNoop "" "::" hsame
  obtain ⟨line, line', hpair⟩ := List.length_eq_two.1 hlength
  rw [hpair] at hlines
  obtain ⟨unknown, hunknown, hrecords⟩ := hlines 0 _ _ line rfl (by rw [← hplain]; rfl) rfl
  obtain ⟨noop, hnoop, hrecords'⟩ := hlines 1 _ _ line' rfl (by rw [← hplain]; rfl) rfl
  exact ⟨results, e, text, after, hrun, hplain, htext, line, line', unknown, noop, hpair, hunknown,
    (hrecords.of_none rfl).1, hnoop, hrecords'.level_eq_info_iff.2 (by decide),
    (hrecords'.of_fail _ (by decide)).2.2⟩

end Fixture

end CopyTrial
