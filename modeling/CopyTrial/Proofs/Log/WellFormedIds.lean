import Mathlib.Logic.Function.Iterate
import CopyTrial.Proofs.Log.RoundTrip
import CopyTrial.Proofs.Log.TraceId
import CopyTrial.Proofs.Text.Pieces

/-!
# Emitters whose trace ids are well formed

An emitter writes two pairs of colons into a trace id, and a trace id must have exactly two. So
there must be none in the suite and none in the run, and the colons at their ends must not make a
third pair with those between them. Nothing else matters, and never the number.

## Main results

* `Emitter.isTraceId_traceId_iff` — which suites and runs make well-formed trace ids.
* `Emitter.isTraceId_nth_iff` — whether the ids of an emitter, and the entries with these ids, are
  accepted.
-/

set_option autoImplicit false

namespace CopyTrial

open Text

namespace Emitter

/-- Of a trace id there are the pieces of the suite, of the run, and one more. -/
theorem pieces_le_length_splitPairs (suite runId : String) (number : Nat) :
    (splitPairsFrom [] suite.toList).length + (splitPairsFrom [] runId.toList).length + 1 ≤
      (splitPairs (traceId suite runId number)).length := by
  have hsuite := length_splitPairsFrom_pair_le suite.toList
    (runId.toList ++ ':' :: ':' :: (Numeral.padded 3 number).toList)
  have hrun := length_splitPairsFrom_pair_le runId.toList (Numeral.padded 3 number).toList
  have hnumber := length_splitPairsFrom_pos (Numeral.padded 3 number).toList
  rw [splitPairs, List.length_map, toList_traceId]
  omega

/-- A trace id has a pair too many if the suite ends with a colon and the run starts with one. -/
theorem four_le_length_splitPairs {suite runId : String} (hsuite : ¬ HasPair suite.toList)
    (hlast : suite.toList.getLast? = some ':') (hhead : runId.toList.head? = some ':')
    (number : Nat) : 4 ≤ (splitPairs (traceId suite runId number)).length := by
  -- the colon that is carried over makes a pair with the first one of the run
  have hpair : HasPair (':' :: runId.toList) := (hasPair_cons_iff ':' _).2 (.inl ⟨rfl, hhead⟩)
  have hcarried : (splitPairsFrom [] (':' :: runId.toList)).length ≠ 1 := fun hone =>
    (length_splitPairsFrom_eq_one_iff _).1 hone hpair
  have hrun := length_splitPairsFrom_pair_le (':' :: runId.toList) (Numeral.padded 3 number).toList
  have hpos := length_splitPairsFrom_pos (':' :: runId.toList)
  have hnumber := length_splitPairsFrom_pos (Numeral.padded 3 number).toList
  rw [splitPairs, List.length_map, toList_traceId, length_splitPairsFrom_append hsuite, carryOver,
    if_pos hlast, ← List.cons_append]
  omega

/-- **Which suites and runs make well-formed trace ids**: those that hold no pair of colons, unless
the suite ends with a colon and the run starts with one.

**Proof sketch.** If there is a pair in the suite or in the run, a piece is added to the three that
are there anyway. If there is none, and no pair comes about between them, there are just the three;
and if one comes about, there are four. -/
theorem isTraceId_traceId_iff (suite runId : String) (number : Nat) :
    IsTraceId (traceId suite runId number) ↔
      ¬ HasPair suite.toList ∧ ¬ HasPair runId.toList ∧
        ¬ (suite.toList.getLast? = some ':' ∧ runId.toList.head? = some ':') := by
  constructor
  · intro hid
    have hpieces := pieces_le_length_splitPairs suite runId number
    have hsuitePos := length_splitPairsFrom_pos suite.toList
    have hrunPos := length_splitPairsFrom_pos runId.toList
    rw [IsTraceId] at hid
    have hsuite : ¬ HasPair suite.toList := (length_splitPairsFrom_eq_one_iff _).1 (by omega)
    have hrun : ¬ HasPair runId.toList := (length_splitPairsFrom_eq_one_iff _).1 (by omega)
    refine ⟨hsuite, hrun, fun hseam => ?_⟩
    have hfour := four_le_length_splitPairs hsuite hseam.1 hseam.2 number
    omega
  · rintro ⟨hsuite, hrun, hseam⟩
    exact isTraceId_traceId hsuite hrun hseam number

/-- The trace id that an emitter gives out after so many others. -/
def idAfter (e : Emitter) (count : Nat) : String :=
  ((fun e : Emitter => e.nextTraceId.2)^[count] e).nextTraceId.1

/-- After so many trace ids an emitter gives out the one with the next number. -/
theorem idAfter_eq (e : Emitter) (count : Nat) :
    e.idAfter count = traceId e.suite e.runId (e.sequence + count + 1) := by
  have hcounted : (fun e : Emitter => e.nextTraceId.2)^[count] e =
      { e with sequence := e.sequence + count } := by
    induction count with
    | zero => rfl
    | succ count ih =>
      rw [Function.iterate_succ_apply', ih]
      rfl
  rw [idAfter, hcounted]
  rfl

/-- The line of an entry that says no more than what, when and where is accepted exactly if its
trace id is well formed. -/
theorem validateLine_bare_iff (timestamp id : String) (level : Level) (event : String)
    (suite : Option String) :
    validateLine (Entry.line { timestamp, traceId := id, level, event, suite }) =
      .ok { timestamp, traceId := id, level, event, suite } ↔ IsTraceId id := by
  obtain ⟨entry, hentry⟩ : ∃ entry : Entry,
      entry = { timestamp, traceId := id, level, event, suite } := ⟨_, rfl⟩
  rw [← hentry]
  have hloggable : entry.Loggable := by
    intro v hv
    rw [hentry] at hv
    cases hv
  have hfaults : entry.faults = if IsTraceId id then [] else [.badTraceId id] := by
    rw [hentry]
    rfl
  rw [Entry.validateLine_line_eq hloggable, hfaults]
  by_cases hid : IsTraceId id <;> simp [hid]

/-- **Whether the ids of an emitter are accepted.** Whatever trace id a new emitter gives out, after
any number of others and whether its log is kept in memory or in a file, it has the three pieces
that a log asks for exactly if neither the suite nor the run holds a pair of colons, and not both
the suite ends with a colon and the run starts with one. The same decides whether an entry with the
id is accepted that says no more than what, when and where. -/
theorem isTraceId_nth_iff (suite runId : String) (sink : LogSink) (count : Nat) :
    (IsTraceId ((⟨suite, runId, 0, sink⟩ : Emitter).idAfter count) ↔
      ¬ [':', ':'] <:+: suite.toList ∧ ¬ [':', ':'] <:+: runId.toList ∧
        ¬ (suite.toList.getLast? = some ':' ∧ runId.toList.head? = some ':')) ∧
    ∀ (timestamp : String) (level : Level) (event : String),
      validateLine (Entry.line
          { timestamp, traceId := (⟨suite, runId, 0, sink⟩ : Emitter).idAfter count, level, event
            suite := some suite }) =
        .ok { timestamp, traceId := (⟨suite, runId, 0, sink⟩ : Emitter).idAfter count, level, event
              suite := some suite } ↔
      ¬ [':', ':'] <:+: suite.toList ∧ ¬ [':', ':'] <:+: runId.toList ∧
        ¬ (suite.toList.getLast? = some ':' ∧ runId.toList.head? = some ':') := by
  have hid := isTraceId_traceId_iff suite runId (0 + count + 1)
  rw [idAfter_eq]
  exact ⟨hid, fun timestamp level event =>
    (validateLine_bare_iff timestamp _ level event (some suite)).trans hid⟩

/-- Single colons do no harm at other ends, nor does an empty suite or run. -/
example : IsTraceId (traceId ":" "" 7) ∧ IsTraceId (traceId "" ":" 1000) := by decide

end Emitter

end CopyTrial
