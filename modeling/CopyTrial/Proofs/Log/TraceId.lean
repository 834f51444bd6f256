import CopyTrial.Log.Emitter
import CopyTrial.Log.Validation
import CopyTrial.Proofs.Numeral
import CopyTrial.Proofs.Text.Lines

/-!
# Trace ids of emitters

The trace id that an emitter gives out holds the suite, the run and a number, with pairs of colons
between them. It has three pieces if these pairs are the first ones to be found, and in any case
its number can be told from it.

## Main results

* `Emitter.isTraceId_traceId` — the trace ids of an emitter are well formed.
* `Emitter.traceId_injective` — the trace ids of different numbers are different.
-/

set_option autoImplicit false

namespace CopyTrial

open Text

/-- The characters of a trace id. -/
theorem Emitter.toList_traceId (suite runId : String) (number : Nat) :
    (traceId suite runId number).toList = suite.toList ++ ':' :: ':' ::
      (runId.toList ++ ':' :: ':' :: (Numeral.padded 3 number).toList) := by
  simp [traceId]

/-- **The trace ids of different numbers are different**, whatever the suite and the run. -/
theorem Emitter.traceId_injective (suite runId : String) :
    Function.Injective (Emitter.traceId suite runId) := by
  intro n n' h
  rw [← String.toList_inj] at h
  simp only [traceId, String.toList_append] at h
  exact Numeral.padded_injective 3 (String.toList_inj.1 (List.append_cancel_left h))

/-- A trace id is never empty. -/
theorem Emitter.traceId_ne_empty (suite runId : String) (number : Nat) :
    traceId suite runId number ≠ "" := by
  intro h
  rw [← String.toList_inj] at h
  simp [traceId] at h

/-- A trace id is well formed if there are three pieces of its characters. -/
theorem isTraceId_iff (id : String) : IsTraceId id ↔ (splitPairsFrom [] id.toList).length = 3 := by
  rw [IsTraceId, splitPairs, List.length_map]

/-- There are no colons side by side in what is carried over a pair from the start of a trace id,
where that does not bring two together. -/
theorem not_hasPair_carryOver {before after : List Char} (hafter : ¬ HasPair after)
    (h : ¬ (before.getLast? = some ':' ∧ after.head? = some ':')) :
    ¬ HasPair (carryOver before after) := by
  rw [carryOver]
  split
  · next hlast =>
    rw [hasPair_cons_iff, not_or]
    exact ⟨fun hhead => h ⟨hlast, hhead.2⟩, hafter⟩
  · exact hafter

/-- What is carried over a pair goes on as what stands after it does. -/
theorem carryOver_append (before after more : List Char) :
    carryOver before (after ++ more) = carryOver before after ++ more := by
  rw [carryOver, carryOver]
  split <;> rfl

/-- **The trace ids of an emitter are well formed** if neither the suite nor the run holds a pair
of colons, and they do not make one across a pair between them.

**Proof sketch.** Each of the two pairs that were written ends a piece. A colon before the first
one is carried over to the run, where it makes no pair; one before the second is carried over to
the number, which has no colon. -/
theorem Emitter.isTraceId_traceId {suite runId : String} (hsuite : ¬ HasPair suite.toList)
    (hrun : ¬ HasPair runId.toList)
    (h : ¬ (suite.toList.getLast? = some ':' ∧ runId.toList.head? = some ':')) (number : Nat) :
    IsTraceId (Emitter.traceId suite runId number) := by
  have hcolon := Numeral.not_mem_padded 3 number
  have hnumber : ¬ HasPair (carryOver (carryOver suite.toList runId.toList)
      (Numeral.padded 3 number).toList) :=
    not_hasPair_carryOver (not_hasPair_of_not_mem hcolon)
      fun hboth => hcolon (List.mem_of_mem_head? hboth.2)
  rw [isTraceId_iff, toList_traceId, length_splitPairsFrom_append hsuite, carryOver_append,
    length_splitPairsFrom_append (not_hasPair_carryOver hrun h),
    length_splitPairsFrom_of_not_hasPair [] hnumber]

end CopyTrial
