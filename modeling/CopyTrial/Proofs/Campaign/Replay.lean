import CopyTrial.Campaign.Run
import CopyTrial.Machine
import CopyTrial.Proofs.Wording

/-!
# Verdicts that are recorded and replayed

What comes of a scenario is told by the scenario alone, apart from how long the trial takes. So the
verdicts that were observed of a fixture can be recorded as the ones that are expected, and they are
observed again when it is run the next time; and whoever expects another verdict of one scenario
changes the result of that one only. The note on a result is there exactly if it did not pass, and
names the two verdicts so that both can be told from it.

## Main definitions

* `Scenario.observed`, `Scenario.result` — the verdict on a scenario, and its result without the
  duration.
* `Fixture.results` — the results of running a fixture on a machine.
* `Fixture.recording`, `Fixture.expecting` — a fixture that expects what was observed, and one that
  expects another verdict of one scenario.

## Main results

* `Fixture.map_untimed_results` — the results of a run are those of the scenarios.
* `Result.disagreement_inj` — the note tells both verdicts.
* `Fixture.results_replay` — what results say, and what comes of recorded verdicts.
-/

set_option autoImplicit false

namespace CopyTrial

/-! ## The result of a scenario -/

namespace Result

/-- A result without its duration. -/
def untimed (r : Result) : Result := { r with duration := 0 }

/-- **The note on two verdicts that differ tells both.** -/
theorem disagreement_inj {expected expected' observed observed' : Expectation}
    (h : disagreement expected observed = disagreement expected' observed') :
    expected = expected' ∧ observed = observed' := by
  have htext : ∀ expected observed : Expectation,
      (disagreement expected observed).toList =
        "expected ".toList ++ (expected.wording.toList ++
          (", observed ".toList ++ (observed.wording.toList ++ []))) := by
    intro expected observed
    simp [disagreement]
  have hchars := congrArg String.toList h
  rw [htext, htext] at hchars
  obtain ⟨hexpected, hrest⟩ := Expectation.wording_append_inj (List.append_cancel_left hchars)
  exact ⟨hexpected, (Expectation.wording_append_inj (List.append_cancel_left hrest)).1⟩

end Result

namespace Scenario

/-- The verdict that is observed of a scenario, unless its primitive has no known name. -/
def observed (s : Scenario) : Option Expectation :=
  (Kind.read? s.primitive).map fun kind => .ofVerdict (s.trial.verdict kind.primitive)

/-- The scenario with another verdict expected. -/
def expecting (x : Expectation) (s : Scenario) : Scenario := { s with expect := x }

/-- What is observed does not depend on what is expected. -/
theorem observed_expecting (x : Expectation) (s : Scenario) :
    (s.expecting x).observed = s.observed := by
  rw [observed, observed]
  rfl

/-- The result of a scenario, without its duration. -/
def result (family : String) (s : Scenario) : Result :=
  match Kind.read? s.primitive with
  | none => .unresolved family s
  | some kind => .ofAttempt family s (s.attempt kind) 0

/-- A scenario that is run has its result, on any machine. -/
theorem untimed_run (family : String) (s : Scenario) (machine : Machine) :
    ((s.run family : StateM Machine (Result × Option Attempt)) machine).1.1.untimed =
      s.result family := by
  rw [run, result]
  cases Kind.read? s.primitive <;> rfl

/-- What the result of a scenario says. -/
structure Says (family : String) (s : Scenario) (r : Result) : Prop where
  scenario_eq : r.scenario = s.name
  family_eq : r.family = family
  primitive_eq : r.primitive = s.primitive
  expected_eq : r.expected = s.expect
  observed_eq : r.observed = s.observed
  passed_iff : r.passed = true ↔ s.observed = some s.expect
  note_eq : r.note = s.observed.elim (some (Failure.unknownPrimitive s.primitive).message)
    fun x => if x = s.expect then none else some (Result.disagreement s.expect x)

/-- The result of a scenario says what was expected and observed, and has a note if these
differ. -/
theorem says_result (family : String) (s : Scenario) : s.Says family (s.result family) := by
  rw [result]
  cases hkind : Kind.read? s.primitive with
  | none =>
    have hnone : s.observed = none := by rw [observed, hkind]; rfl
    refine ⟨rfl, rfl, rfl, rfl, hnone.symm, ?_, by rw [hnone]; rfl⟩
    rw [hnone]
    exact iff_of_false Bool.false_ne_true (Option.some_ne_none _).symm
  | some kind =>
    have hsome : s.observed = some (.ofVerdict (s.attempt kind).verdict) := by
      rw [observed, hkind]
      rfl
    refine ⟨rfl, rfl, rfl, rfl, hsome.symm, ?_, by rw [hsome]; rfl⟩
    rw [hsome, Option.some.injEq]
    exact decide_eq_true_iff

variable {family : String} {s : Scenario} {r : Result}

/-- How long a trial took does not matter. -/
theorem Says.of_untimed (h : s.Says family r.untimed) : s.Says family r :=
  ⟨h.scenario_eq, h.family_eq, h.primitive_eq, h.expected_eq, h.observed_eq, h.passed_iff, h.note_eq⟩

/-- There is a note exactly if the result did not pass. -/
theorem Says.note_isSome_iff (h : s.Says family r) : r.note.isSome = true ↔ r.passed = false := by
  rw [h.note_eq, ← Bool.not_eq_true, h.passed_iff]
  cases s.observed with
  | none => simp
  | some x => simp

/-- A note on two verdicts is the one that names them. -/
theorem Says.note_eq_of_observed (h : s.Says family r) {note : String} {x : Expectation}
    (hnote : r.note = some note) (hx : r.observed = some x) :
    note = Result.disagreement r.expected x := by
  rw [h.observed_eq] at hx
  rw [h.note_eq, hx, Option.elim_some] at hnote
  split at hnote
  · cases hnote
  · rw [h.expected_eq]
    exact (Option.some.inj hnote).symm

/-- A scenario that expects what is observed passes. -/
theorem Says.passes (h : s.Says family r) (hexpect : s.observed = some s.expect) :
    r.passed = true ∧ r.note = none := by
  refine ⟨h.passed_iff.2 hexpect, ?_⟩
  rw [h.note_eq, hexpect, Option.elim_some, if_pos rfl]

end Scenario

/-! ## The results of a fixture -/

namespace Fixture

/-- The results of running a fixture on a machine. -/
def results (f : Fixture) (machine : Machine) : List Result :=
  ((f.run : StateM Machine (List Result)) machine).1

/-- The results of scenarios, without the durations, are those that the scenarios have. -/
theorem map_untimed_runCases (family : String) (cases : List Scenario) (machine : Machine) :
    ((runCases family cases : StateM Machine (List Result)) machine).1.map Result.untimed =
      cases.map (Scenario.result family) := by
  induction cases generalizing machine with
  | nil => rfl
  | cons s rest ih =>
    have hfirst := s.untimed_run family machine
    simp only [runCases, bind, StateT.bind]
    generalize (s.run family : StateM Machine (Result × Option Attempt)) machine = first at hfirst ⊢
    exact List.cons_eq_cons.2 ⟨hfirst, ih first.2⟩

/-- **The results of a run are those of the scenarios**, whatever the machine, but for the
durations. -/
theorem map_untimed_results (f : Fixture) (machine : Machine) :
    (f.results machine).map Result.untimed = f.cases.map (Scenario.result f.family) :=
  map_untimed_runCases f.family f.cases machine

/-- There is a result for each scenario. -/
theorem length_results (f : Fixture) (machine : Machine) :
    (f.results machine).length = f.cases.length := by
  rw [← List.length_map Result.untimed, map_untimed_results, List.length_map]

variable {f : Fixture} {machine : Machine} {k : Nat} {r : Result}

/-- A result belongs to the scenario at its place. -/
theorem untimed_of_getElem? {s : Scenario} (hs : f.cases[k]? = some s)
    (hr : (f.results machine)[k]? = some r) : r.untimed = s.result f.family := by
  have hplace := congrArg (·[k]?) (f.map_untimed_results machine)
  simp only [List.getElem?_map, hs, hr] at hplace
  exact Option.some.inj hplace

/-- A result says what there is to say on the scenario at its place. -/
theorem says_of_getElem? {s : Scenario} (hs : f.cases[k]? = some s)
    (hr : (f.results machine)[k]? = some r) : s.Says f.family r := by
  have hsays := s.says_result f.family
  rw [← untimed_of_getElem? hs hr] at hsays
  exact hsays.of_untimed

/-- For each result there is a scenario at its place. -/
theorem exists_case (hr : (f.results machine)[k]? = some r) : ∃ s, f.cases[k]? = some s := by
  obtain ⟨hlt, -⟩ := List.getElem?_eq_some_iff.1 hr
  rw [length_results] at hlt
  exact ⟨_, List.getElem?_eq_getElem hlt⟩

/-! ## Recorded verdicts -/

/-- The fixture that expects of each scenario what was observed. -/
def recording (f : Fixture) (results : List Result) : Fixture where
  version := f.version
  family := f.family
  cases := List.zipWith (fun s r => s.expecting (r.observed.getD s.expect)) f.cases results

/-- The fixture that expects another verdict of one scenario. -/
def expecting (f : Fixture) (k : Nat) (x : Expectation) : Fixture where
  version := f.version
  family := f.family
  cases := f.cases.modify k (Scenario.expecting x)

/-- What is recorded of a run is the verdict on each scenario. -/
theorem cases_recording (f : Fixture) (machine : Machine) :
    (f.recording (f.results machine)).cases =
      f.cases.map fun s => s.expecting (s.observed.getD s.expect) := by
  let recorded (s : Scenario) (r : Result) : Scenario := s.expecting (r.observed.getD s.expect)
  have huntimed : List.zipWith recorded f.cases (f.results machine) =
      List.zipWith recorded f.cases ((f.results machine).map Result.untimed) := by
    rw [List.zipWith_map_right]
    rfl
  have hobserved : ∀ s : Scenario, (s.result f.family).observed = s.observed :=
    fun s => (s.says_result f.family).observed_eq
  show List.zipWith recorded f.cases (f.results machine) = _
  rw [huntimed, map_untimed_results, List.zipWith_map_right, List.zipWith_self]
  simp only [recorded, hobserved]

/-- A fixture expects of each scenario what is observed. -/
def Settled (f : Fixture) : Prop := ∀ s ∈ f.cases, s.observed = some s.expect

/-- Recorded verdicts are what is observed, if all primitives have known names. -/
theorem settled_recording (machine : Machine)
    (h : ∀ s ∈ f.cases, (Kind.read? s.primitive).isSome) :
    (f.recording (f.results machine)).Settled := by
  intro s' hs'
  rw [cases_recording, List.mem_map] at hs'
  obtain ⟨s, hs, rfl⟩ := hs'
  obtain ⟨kind, hkind⟩ := Option.isSome_iff_exists.1 (h s hs)
  have hobserved : s.observed = some (.ofVerdict (s.trial.verdict kind.primitive)) := by
    rw [Scenario.observed, hkind]
    rfl
  rw [Scenario.observed_expecting, hobserved, Option.getD_some]
  rfl

/-- A result says what there is to say on some scenario. -/
theorem exists_says_of_mem (hr : r ∈ f.results machine) : ∃ s ∈ f.cases, s.Says f.family r := by
  obtain ⟨k, hk⟩ := List.mem_iff_getElem?.1 hr
  obtain ⟨s, hs⟩ := exists_case hk
  exact ⟨s, List.mem_of_getElem? hs, says_of_getElem? hs hk⟩

/-- **A fixture that expects what is observed passes**, without notes. -/
theorem Settled.passes (h : f.Settled) (hr : r ∈ f.results machine) :
    r.passed = true ∧ r.note = none := by
  obtain ⟨s, hs, hsays⟩ := exists_says_of_mem hr
  exact hsays.passes (h s hs)

/-- The scenario at a place, when another verdict is expected of one. -/
theorem getElem?_expecting {s : Scenario} {j : Nat} (x : Expectation)
    (hs : f.cases[j]? = some s) :
    (f.expecting k x).cases[j]? = some (if k = j then s.expecting x else s) := by
  rw [expecting, List.getElem?_modify, hs]
  rfl

/-- **Another verdict expected of one scenario changes its result only**, which does not pass. -/
theorem Settled.passed_expecting_iff (h : f.Settled) {s : Scenario} {x : Expectation}
    (hs : f.cases[k]? = some s) (hx : s.observed ≠ some x) {machine' : Machine} {j : Nat}
    {before after : Result} (hbefore : (f.results machine)[j]? = some before)
    (hafter : ((f.expecting k x).results machine')[j]? = some after) :
    (after.passed = true ↔ j ≠ k) ∧ (j ≠ k → after.untimed = before.untimed) := by
  obtain ⟨s', hs'⟩ := exists_case hbefore
  have hcase := getElem?_expecting (k := k) x hs'
  by_cases hplace : k = j
  · subst hplace
    obtain rfl := Option.some.inj (hs.symm.trans hs')
    rw [if_pos rfl] at hcase
    have hpassed := (says_of_getElem? hcase hafter).passed_iff
    exact ⟨⟨fun hpass => absurd (hpassed.1 hpass) hx, fun hne => absurd rfl hne⟩,
      fun hne => absurd rfl hne⟩
  · rw [if_neg hplace] at hcase
    have hpassed := (says_of_getElem? hcase hafter).passed_iff
    refine ⟨⟨fun _ => Ne.symm hplace, fun _ => hpassed.2 (h s' (List.mem_of_getElem? hs'))⟩,
      fun _ => ?_⟩
    rw [untimed_of_getElem? hcase hafter, untimed_of_getElem? hs' hbefore]
    rfl

/-- **Results say what was expected and observed, and recorded verdicts replay.** Run a fixture on
any machine. There is one result for each scenario, in order, which says what was expected of it and
the verdict on its trial, or none if its primitive has no known name. The result passed if the two
are the same, and has a note if not; and a note on two verdicts, of whatever run, tells both.

If all primitives have known names, the fixture that expects what was observed passes everywhere on
any machine, without notes. Whoever expects another verdict of one scenario of it, and runs it on any
machine, gets results of which just this one did not pass, and all others are what they were but for
the durations.

**Proof sketch.** The results are those of the scenarios, but for the durations; and the verdict on a
scenario does not depend on what is expected of it. -/
theorem results_replay (f : Fixture) (machine : Machine) :
    (f.results machine).length = f.cases.length ∧
    (∀ (k : Nat) (s : Scenario) (r : Result), f.cases[k]? = some s →
      (f.results machine)[k]? = some r →
      r.scenario = s.name ∧ r.family = f.family ∧ r.primitive = s.primitive ∧
      r.expected = s.expect ∧ r.observed = s.observed ∧
      (r.observed = none ↔ Kind.read? s.primitive = none) ∧
      (r.passed = true ↔ r.observed = some s.expect) ∧
      (r.note.isSome = true ↔ r.passed = false)) ∧
    (∀ (g : Fixture) (machine' : Machine) (r r' : Result) (note : String) (x x' : Expectation),
      r ∈ f.results machine → r' ∈ g.results machine' →
      r.note = some note → r'.note = some note → r.observed = some x → r'.observed = some x' →
      r.expected = r'.expected ∧ x = x') ∧
    ((∀ s ∈ f.cases, (Kind.read? s.primitive).isSome) →
      let recorded := f.recording (f.results machine)
      ∀ replaying : Machine,
        (recorded.results replaying).length = f.cases.length ∧
        (∀ r ∈ recorded.results replaying, r.passed = true ∧ r.note = none) ∧
        ∀ (k : Nat) (r : Result) (x : Expectation) (other : Machine),
          (f.results machine)[k]? = some r → r.observed ≠ some x →
          let changed := (recorded.expecting k x).results other
          changed.length = f.cases.length ∧
          ∀ (j : Nat) (before after : Result), (recorded.results replaying)[j]? = some before →
            changed[j]? = some after →
            (after.passed = true ↔ j ≠ k) ∧ (j ≠ k → after.untimed = before.untimed)) := by
  refine ⟨f.length_results machine, fun k s r hs hr => ?_, ?_, fun hnamed => ?_⟩
  · have h := says_of_getElem? hs hr
    refine ⟨h.scenario_eq, h.family_eq, h.primitive_eq, h.expected_eq, h.observed_eq, ?_, ?_,
      h.note_isSome_iff⟩
    · rw [h.observed_eq, Scenario.observed, Option.map_eq_none_iff]
    · rw [h.observed_eq]
      exact h.passed_iff
  · intro g machine' r r' note x x' hr hr' hnote hnote' hx hx'
    obtain ⟨s, -, h⟩ := exists_says_of_mem hr
    obtain ⟨s', -, h'⟩ := exists_says_of_mem hr'
    exact Result.disagreement_inj
      ((h.note_eq_of_observed hnote hx).symm.trans (h'.note_eq_of_observed hnote' hx'))
  · intro recorded replaying
    have hsettled : recorded.Settled := settled_recording machine hnamed
    have hlength : recorded.cases.length = f.cases.length := by
      rw [cases_recording, List.length_map]
    refine ⟨(recorded.length_results replaying).trans hlength, fun r hr => hsettled.passes hr,
      fun k r x other hr hx => ⟨?_, fun j before after hbefore hafter => ?_⟩⟩
    · rw [length_results]
      exact (List.length_modify ..).trans hlength
    · obtain ⟨s, hs⟩ := exists_case hr
      have hcase : recorded.cases[k]? = some (s.expecting (s.observed.getD s.expect)) := by
        rw [cases_recording, List.getElem?_map, hs]
        rfl
      have hother : (s.expecting (s.observed.getD s.expect)).observed ≠ some x := by
        rw [Scenario.observed_expecting, ← (says_of_getElem? hs hr).observed_eq]
        exact hx
      exact hsettled.passed_expecting_iff hcase hother hbefore hafter

end Fixture

end CopyTrial
