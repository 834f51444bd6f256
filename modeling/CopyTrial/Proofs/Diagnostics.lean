import CopyTrial.Trial
import CopyTrial.Proofs.Wording

/-!
# What reports leave

Trials that report to one place for output leave there the diagnostic lines of those that fail, in
order, and nothing else. If the place is limited, it holds the first bytes of these lines, as many
as it can: a line that does not fit fills it up, and its trial has no verdict. A trial that passes
always has one.

## Main definitions

* `Sink.ofSent` — a place for output to which bytes have been sent, whether or not they fit.
* `Trial.reportAll` — trials of one literal that report to one place.
* `Trial.divergences` — where those of them that fail diverge.

## Main results

* `Trial.report_ofSent` — what a trial reports, and what it leaves.
* `Trial.reportAll_ofSent` — what a sequence of trials reports, and what it leaves.
* `Trial.reports_decodable` — reports to an unlimited place can all be told from what is there, and
  what comes of those to a limited one.
-/

set_option autoImplicit false

namespace CopyTrial

/-! ## Places for output -/

namespace Sink

/-- A place for output to which bytes have been sent: it holds as many of them as it can. -/
def ofSent (capacity : Option Nat) (sent : Bytes) : Sink where
  written := capacity.elim sent (sent.take ·)
  capacity := capacity

variable (capacity : Option Nat) (sent : Bytes)

/-- To a new place nothing has been sent. -/
theorem ofSent_nil : ofSent capacity [] = { capacity } := by
  cases capacity with
  | none => rfl
  | some n => rw [ofSent, Option.elim_some, List.take_nil]

/-- Bytes that are written are sent after the others. -/
theorem write_ofSent (bytes : Bytes) :
    (ofSent capacity sent).write bytes = ofSent capacity (sent ++ bytes) := by
  cases capacity with
  | none => rfl
  | some n =>
    have hroom : n - (sent.take n).length = n - sent.length := by
      rw [List.length_take]
      omega
    show ({ written := sent.take n ++ bytes.take (n - (sent.take n).length), capacity := some n } :
      Sink) = { written := (sent ++ bytes).take n, capacity := some n }
    rw [hroom, List.take_append]

/-- Bytes fit if all that has been sent does with them. Where some have not, no more fit. -/
theorem fits_ofSent {bytes : Bytes} (h : bytes ≠ []) :
    (ofSent capacity sent).fits bytes.length =
      capacity.all fun n => (sent ++ bytes).length ≤ n := by
  cases capacity with
  | none => rfl
  | some n =>
    have hpos := List.length_pos_iff.2 h
    have hlength : (sent.take n).length = min n sent.length := List.length_take
    show decide ((sent.take n).length + bytes.length ≤ n) = decide ((sent ++ bytes).length ≤ n)
    rw [decide_eq_decide, hlength, List.length_append]
    omega

end Sink

/-- The verdict that a report gives if so many bytes have been sent when it ends: none if it is
failing and they do not fit. -/
def Verdict.answer (capacity : Option Nat) (total : Nat) : Verdict → Option Verdict
  | .pass => some .pass
  | .fail d => if capacity.all (total ≤ ·) then some (.fail d) else none

/-- To a place without limit every verdict is reported. -/
theorem Verdict.answer_none (total : Nat) (verdict : Verdict) :
    verdict.answer none total = some verdict := by
  cases verdict <;> rfl

/-- To a place with a limit a failing verdict is reported if all that has been sent fits. -/
theorem Verdict.answer_some_fail (n total : Nat) (d : Divergence) :
    (Verdict.fail d).answer (some n) total = if total ≤ n then some (.fail d) else none := by
  simp only [answer, Option.all_some, decide_eq_true_eq]

namespace Trial

/-! ## One report -/

/-- **What a trial reports**: the diagnostic line is sent if it fails, and nothing otherwise. -/
theorem report_ofSent (t : Trial) (p : Primitive) (capacity : Option Nat) (sent : Bytes) :
    let total := sent ++ (t.verdict p).divergence.elim [] Divergence.diagnosticLine
    t.report p (.ofSent capacity sent) =
      ((t.verdict p).answer capacity total.length, .ofSent capacity total) := by
  cases hv : t.verdict p with
  | pass =>
    have hnil : sent ++ Verdict.pass.divergence.elim [] Divergence.diagnosticLine = sent :=
      List.append_nil sent
    rw [hnil, report, hv]
    rfl
  | fail d =>
    rw [report, hv]
    simp only [Sink.write_ofSent, Sink.fits_ofSent capacity sent d.diagnosticLine_ne_nil]
    rfl

/-! ## Sequences of reports -/

section

variable (literal : Bytes)

/-- Trials of one literal, each with a fill and a primitive of its own, that report to one place
one after the other: what each of them gives, and the place in the end. -/
def reportAll : List (UInt8 × Primitive) → Sink → List (Option Verdict) × Sink
  | [], sink => ([], sink)
  | (fill, p) :: runs, sink =>
    let (answer, sink) := (⟨literal, fill⟩ : Trial).report p sink
    let (answers, sink) := reportAll runs sink
    (answer :: answers, sink)

/-- The verdict of a trial of the literal. -/
def verdictOf (run : UInt8 × Primitive) : Verdict := (⟨literal, run.1⟩ : Trial).verdict run.2

/-- Where those trials diverge that fail, in order. -/
def divergences (runs : List (UInt8 × Primitive)) : List Divergence :=
  runs.filterMap fun run => (verdictOf literal run).divergence

/-- The diagnostic lines of the trials that fail. -/
def lines (runs : List (UInt8 × Primitive)) : Bytes :=
  (divergences literal runs).flatMap Divergence.diagnosticLine

/-- The lines of a trial come before those of the others. -/
theorem lines_cons (run : UInt8 × Primitive) (runs : List (UInt8 × Primitive)) :
    lines literal (run :: runs) =
      (verdictOf literal run).divergence.elim [] Divergence.diagnosticLine ++
        lines literal runs := by
  rw [lines, divergences, List.filterMap_cons]
  cases (verdictOf literal run).divergence <;> rfl

/-- **What a sequence of trials reports.** The lines of those that fail are sent in order, and each
trial gives what it does with all that has been sent by its end.

**Proof sketch.** Induction on the trials, with the bytes that were sent before them general. -/
theorem reportAll_ofSent (capacity : Option Nat) (sent : Bytes)
    (runs : List (UInt8 × Primitive)) :
    (reportAll literal runs (.ofSent capacity sent)).2 =
        .ofSent capacity (sent ++ lines literal runs) ∧
      (reportAll literal runs (.ofSent capacity sent)).1.length = runs.length ∧
      ∀ k run, runs[k]? = some run →
        (reportAll literal runs (.ofSent capacity sent)).1[k]? =
          some ((verdictOf literal run).answer capacity
            (sent ++ lines literal (runs.take (k + 1))).length) := by
  induction runs generalizing sent with
  | nil => exact ⟨by rw [lines, divergences]; simp [reportAll], rfl, by simp⟩
  | cons first runs ih =>
    obtain ⟨hsink, hlength, hanswers⟩ :=
      ih (sent ++ (verdictOf literal first).divergence.elim [] Divergence.diagnosticLine)
    have hfirst := (⟨literal, first.1⟩ : Trial).report_ofSent first.2 capacity sent
    rw [reportAll, hfirst]
    refine ⟨?_, congrArg (· + 1) hlength, fun k run hrun => ?_⟩
    · rw [lines_cons, ← List.append_assoc]
      exact hsink
    · cases k with
      | zero =>
        obtain rfl := Option.some.inj hrun
        rw [List.take_succ_cons, List.take_zero, lines_cons]
        simp only [lines, divergences, List.filterMap_nil, List.flatMap_nil, List.append_nil]
        rfl
      | succ k =>
        rw [List.take_succ_cons, lines_cons, ← List.append_assoc]
        exact hanswers k run hrun

/-- **Reports can be told from what they leave.** Trials that report to an unlimited place all give
their verdicts, and leave there the diagnostic lines of those that fail, in order; and a sequence of
such lines has only one reading, whatever the raw bytes look like. A trial that reports to a new
place for so many bytes gives its verdict and leaves nothing if it passes; if it fails, it gives no
verdict exactly when the line is longer, and leaves the first so many bytes of it. The same holds of
a sequence of trials that report to one such place: it holds the first so many bytes of all the
lines, and a trial that fails gives its verdict exactly if the lines up to its own fit.

**Proof sketch.** What reports leave depends only on all that has been sent, so all of it follows
from what a sequence of trials reports. -/
theorem reports_decodable :
    (∀ runs : List (UInt8 × Primitive),
      reportAll literal runs {} =
        (runs.map fun run => some (verdictOf literal run),
          { written := (divergences literal runs).flatMap Divergence.diagnosticLine })) ∧
    (∀ ds ds' : List Divergence,
      ds.flatMap Divergence.diagnosticLine = ds'.flatMap Divergence.diagnosticLine → ds = ds') ∧
    (∀ (fill : UInt8) (p : Primitive) (n : Nat),
      let t : Trial := ⟨literal, fill⟩
      let report := t.report p { capacity := some n }
      (t.verdict p = .pass → report.1 = some .pass ∧ report.2.written = []) ∧
      ∀ d, t.verdict p = .fail d →
        (report.1 = none ↔ n < d.diagnosticLine.length) ∧
        (report.1 = some (.fail d) ↔ d.diagnosticLine.length ≤ n) ∧
        report.2.written = d.diagnosticLine.take n) ∧
    ∀ (runs : List (UInt8 × Primitive)) (n : Nat),
      let reports := reportAll literal runs { capacity := some n }
      reports.2.written = (lines literal runs).take n ∧
      reports.1.length = runs.length ∧
      ∀ k run, runs[k]? = some run →
        reports.1[k]? = some ((verdictOf literal run).answer (some n)
          (lines literal (runs.take (k + 1))).length) := by
  refine ⟨fun runs => ?_, fun ds ds' h => Divergence.flatMap_diagnosticLine_injective h,
    fun fill p n => ?_, fun runs n => ?_⟩
  · obtain ⟨hsink, hlength, hanswers⟩ := reportAll_ofSent literal none [] runs
    refine Prod.ext (List.ext_getElem? fun k => ?_) hsink
    rw [List.getElem?_map]
    cases hrun : runs[k]? with
    | none =>
      have hend := List.getElem?_eq_none_iff.1 hrun
      exact List.getElem?_eq_none (Nat.le_trans (Nat.le_of_eq hlength) hend)
    | some run =>
      have hanswer := hanswers k run hrun
      rw [Verdict.answer_none] at hanswer
      exact hanswer
  · intro t report
    have hreport := t.report_ofSent p (some n) []
    rw [Sink.ofSent_nil] at hreport
    refine ⟨fun hpass => ?_, fun d hfail => ?_⟩
    · have hsilent : report = (some .pass, .ofSent (some n) []) := by
        rw [hpass] at hreport
        exact hreport
      rw [hsilent]
      exact ⟨rfl, List.take_nil⟩
    · have hline : report = (if d.diagnosticLine.length ≤ n then some (.fail d) else none,
          .ofSent (some n) d.diagnosticLine) := by
        rw [hfail] at hreport
        exact hreport.trans (Prod.ext (Verdict.answer_some_fail ..) rfl)
      rw [hline]
      refine ⟨?_, ?_, rfl⟩ <;> simp
  · obtain ⟨hsink, hlength, hanswers⟩ := reportAll_ofSent literal (some n) [] runs
    rw [Sink.ofSent_nil] at hsink hlength hanswers
    refine ⟨?_, hlength, hanswers⟩
    show (reportAll literal runs { capacity := some n }).2.written = _
    rw [hsink]
    rfl

end

end Trial

end CopyTrial
