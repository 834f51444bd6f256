import CopyTrial.Trial

/-!
# The first divergence and the verdict

A scan of two buffers stops at the least index at which they differ, or passes over all that both
of them hold. A trial passes exactly when the primitive leaves the source in the destination, and
a failing one names the first byte that is wrong.

## Main definitions

* `Agree` — two buffers hold the same bytes as far as both go.
* `IsFirstDivergence` — a divergence is at the least index at which two buffers differ, and tells
  their bytes there.
* `Divergence.swap` — a divergence with the two buffers exchanged.

## Main results

* `firstDivergence_eq_none_iff`, `firstDivergence_eq_some_iff` — what the scan finds.
* `firstDivergence_comm` — the scan of the exchanged buffers.
* `Trial.verdict_iff` — what the verdict on a primitive says.
-/

set_option autoImplicit false

namespace CopyTrial

/-- Two buffers hold the same bytes as far as both go. -/
def Agree (expected actual : Bytes) : Prop :=
  ∀ i < min expected.length actual.length, expected[i]? = actual[i]?

/-- A divergence is at the least index at which two buffers differ, and tells their bytes there. -/
structure IsFirstDivergence (expected actual : Bytes) (d : Divergence) : Prop where
  expected_at : expected[d.index]? = some d.expected
  actual_at : actual[d.index]? = some d.actual
  differ : d.actual ≠ d.expected
  least : ∀ i < d.index, expected[i]? = actual[i]?

namespace Divergence

/-- The divergence with the two buffers exchanged. -/
def swap (d : Divergence) : Divergence := ⟨d.index, d.expected, d.actual⟩

/-- The divergence of buffers that have one more byte in front. -/
def later (d : Divergence) : Divergence := ⟨d.index + 1, d.actual, d.expected⟩

end Divergence

/-! ## The scan -/

/-- Where a scan starts to count only moves the index. -/
theorem firstDivergenceFrom_succ (index : Nat) (expected actual : Bytes) :
    firstDivergenceFrom (index + 1) expected actual =
      (firstDivergenceFrom index expected actual).map Divergence.later := by
  induction expected generalizing index actual with
  | nil => rfl
  | cons e expected ih =>
    cases actual with
    | nil => rfl
    | cons a actual =>
      simp only [firstDivergenceFrom]
      split
      · exact ih (index + 1) actual
      · rfl

/-- The scan of buffers that both have a first byte. -/
theorem firstDivergence_cons (e a : UInt8) (expected actual : Bytes) :
    firstDivergence (e :: expected) (a :: actual) =
      if e = a then (firstDivergence expected actual).map Divergence.later
      else some ⟨0, a, e⟩ := by
  unfold firstDivergence
  rw [firstDivergenceFrom, firstDivergenceFrom_succ]

/-- Nothing is compared with an empty buffer. -/
@[simp] theorem firstDivergence_nil_left (actual : Bytes) : firstDivergence [] actual = none := rfl

/-- An empty buffer is compared with nothing. -/
@[simp] theorem firstDivergence_nil_right (expected : Bytes) :
    firstDivergence expected [] = none := by
  cases expected <;> rfl

/-- Agreement is agreement at the first byte and beyond it. -/
theorem agree_cons_iff (e a : UInt8) (expected actual : Bytes) :
    Agree (e :: expected) (a :: actual) ↔ e = a ∧ Agree expected actual := by
  constructor
  · intro h
    refine ⟨?_, fun i hi => ?_⟩
    · have h0 := h 0 (by simp)
      simpa using h0
    · have hs := h (i + 1) (by simp only [List.length_cons]; omega)
      simpa using hs
  · rintro ⟨rfl, h⟩ i hi
    cases i with
    | zero => rfl
    | succ i =>
      have hi' : i < min expected.length actual.length := by
        simp only [List.length_cons] at hi
        omega
      simpa using h i hi'

/-- A divergence beyond equal first bytes is one of the buffers without them. -/
theorem isFirstDivergence_later_iff (a : UInt8) (expected actual : Bytes) (d : Divergence) :
    IsFirstDivergence (a :: expected) (a :: actual) d.later ↔
      IsFirstDivergence expected actual d := by
  constructor
  · intro h
    exact ⟨by simpa [Divergence.later] using h.expected_at,
      by simpa [Divergence.later] using h.actual_at, h.differ,
      fun i hi => by simpa using h.least (i + 1) (Nat.succ_lt_succ hi)⟩
  · intro h
    refine ⟨by simpa [Divergence.later] using h.expected_at,
      by simpa [Divergence.later] using h.actual_at, h.differ, fun i hi => ?_⟩
    cases i with
    | zero => rfl
    | succ i => simpa using h.least i (Nat.lt_of_succ_lt_succ hi)

/-- Two buffers have at most one first divergence. -/
theorem IsFirstDivergence.unique {expected actual : Bytes} {d d' : Divergence}
    (h : IsFirstDivergence expected actual d) (h' : IsFirstDivergence expected actual d') :
    d = d' := by
  have not_below : ∀ {d d' : Divergence}, IsFirstDivergence expected actual d →
      IsFirstDivergence expected actual d' → ¬ d.index < d'.index := by
    intro d d' h h' hlt
    have heq := h'.least _ hlt
    rw [h.expected_at, h.actual_at] at heq
    exact h.differ (Option.some.inj heq).symm
  have hi : d.index = d'.index := by
    have h1 := not_below h h'
    have h2 := not_below h' h
    omega
  have ha : d.actual = d'.actual := by
    have heq := h.actual_at
    rw [hi, h'.actual_at] at heq
    exact (Option.some.inj heq).symm
  have he : d.expected = d'.expected := by
    have heq := h.expected_at
    rw [hi, h'.expected_at] at heq
    exact (Option.some.inj heq).symm
  cases d
  cases d'
  simp_all

/-- What the scan finds is the first divergence.

**Proof sketch.** Induction on the two buffers. Unequal first bytes are a divergence at index 0,
below which there is nothing. After equal ones the scan goes on, and what it finds there moves one
index further, as the first divergence does. -/
theorem isFirstDivergence_of_eq_some {expected actual : Bytes} {d : Divergence}
    (h : firstDivergence expected actual = some d) : IsFirstDivergence expected actual d := by
  induction expected generalizing actual d with
  | nil => simp at h
  | cons e expected ih =>
    cases actual with
    | nil => simp at h
    | cons a actual =>
      rw [firstDivergence_cons] at h
      split at h
      · next heq =>
        subst heq
        obtain ⟨d', hd', rfl⟩ := Option.map_eq_some_iff.1 h
        exact (isFirstDivergence_later_iff e expected actual d').2 (ih hd')
      · next hne =>
        obtain rfl := Option.some.inj h
        exact ⟨rfl, rfl, fun heq => hne heq.symm, fun i hi => absurd hi (Nat.not_lt_zero i)⟩

/-- The scan finds nothing exactly when the buffers agree as far as both go. -/
theorem firstDivergence_eq_none_iff (expected actual : Bytes) :
    firstDivergence expected actual = none ↔ Agree expected actual := by
  induction expected generalizing actual with
  | nil => simp [Agree]
  | cons e expected ih =>
    cases actual with
    | nil => simp [Agree]
    | cons a actual =>
      rw [firstDivergence_cons, agree_cons_iff]
      by_cases heq : e = a
      · simp [heq, ih]
      · simp [heq]

/-- The scan finds a divergence exactly when it is the first one. -/
theorem firstDivergence_eq_some_iff (expected actual : Bytes) (d : Divergence) :
    firstDivergence expected actual = some d ↔ IsFirstDivergence expected actual d := by
  refine ⟨isFirstDivergence_of_eq_some, fun h => ?_⟩
  cases hscan : firstDivergence expected actual with
  | none =>
    -- buffers that agree have no divergence
    have hagree := (firstDivergence_eq_none_iff expected actual).1 hscan
    obtain ⟨he, -⟩ := List.getElem?_eq_some_iff.1 h.expected_at
    obtain ⟨ha, -⟩ := List.getElem?_eq_some_iff.1 h.actual_at
    have heq := hagree d.index (by omega)
    rw [h.expected_at, h.actual_at] at heq
    exact absurd (Option.some.inj heq).symm h.differ
  | some d' => rw [(isFirstDivergence_of_eq_some hscan).unique h]

/-- Exchanging the buffers exchanges the bytes of what the scan finds, and changes nothing else. -/
theorem firstDivergence_comm (expected actual : Bytes) :
    firstDivergence actual expected = (firstDivergence expected actual).map Divergence.swap := by
  induction expected generalizing actual with
  | nil => simp
  | cons e expected ih =>
    cases actual with
    | nil => simp
    | cons a actual =>
      rw [firstDivergence_cons, firstDivergence_cons, ih]
      by_cases heq : e = a
      · simp only [heq, if_true, Option.map_map]
        rfl
      · simp [heq, Ne.symm heq, Divergence.swap]

/-- Buffers of one length agree exactly when they are equal. -/
theorem agree_iff_eq {expected actual : Bytes} (h : expected.length = actual.length) :
    Agree expected actual ↔ expected = actual := by
  constructor
  · intro hagree
    apply List.ext_getElem? fun i => ?_
    by_cases hi : i < expected.length
    · exact hagree i (by omega)
    · rw [List.getElem?_eq_none (by omega), List.getElem?_eq_none (by omega)]
  · rintro rfl i hi
    rfl

/-! ## The verdict -/

namespace Trial

/-- A primitive leaves as many bytes as the source has. -/
@[simp] theorem length_outcome (t : Trial) (p : Primitive) :
    (t.outcome p).length = t.source.length := by
  simp [outcome, destination]

/-- A trial passes exactly when the primitive leaves the source in the destination. -/
theorem verdict_eq_pass_iff (t : Trial) (p : Primitive) :
    t.verdict p = .pass ↔ t.outcome p = t.source := by
  rw [eq_comm (a := t.outcome p), ← agree_iff_eq (t.length_outcome p).symm,
    ← firstDivergence_eq_none_iff, verdict]
  cases firstDivergence t.source (t.outcome p) <;> simp [Verdict.ofDivergence]

/-- A trial fails with a divergence exactly when it is the first one of source and destination. -/
theorem verdict_eq_fail_iff (t : Trial) (p : Primitive) (d : Divergence) :
    t.verdict p = .fail d ↔ IsFirstDivergence t.source (t.outcome p) d := by
  rw [← firstDivergence_eq_some_iff, verdict]
  cases firstDivergence t.source (t.outcome p) <;> simp [Verdict.ofDivergence]

/-- **The verdict says whether the copy is right, and where it first is wrong.** A primitive is
called with a destination of one fill byte, the literal with a zero byte after it, and their
length. The trial passes exactly when the destination is then equal to the source, and otherwise
fails with their first divergence. The scan behind it finds, in buffers of any two lengths,
nothing exactly when they agree as far as both go, and otherwise their first divergence; the scan
of the exchanged buffers finds the same with the two bytes exchanged.

**Proof sketch.** No primitive changes the length of the destination, so that agreement as far as
both buffers go is equality. -/
theorem verdict_iff (literal : Bytes) (fill : UInt8) (p : Primitive) :
    let source := literal ++ [0]
    let left := p.copy (List.replicate source.length fill) source source.length
    ((⟨literal, fill⟩ : Trial).verdict p = .pass ↔ left = source) ∧
      (left ≠ source →
        ∃ d, (⟨literal, fill⟩ : Trial).verdict p = .fail d ∧ IsFirstDivergence source left d) ∧
      (∀ d, (⟨literal, fill⟩ : Trial).verdict p = .fail d ↔ IsFirstDivergence source left d) ∧
      ∀ expected actual : Bytes,
        (firstDivergence expected actual = none ↔ Agree expected actual) ∧
        (∀ d, firstDivergence expected actual = some d ↔ IsFirstDivergence expected actual d) ∧
        firstDivergence actual expected =
          (firstDivergence expected actual).map Divergence.swap := by
  intro source left
  have hpass := verdict_eq_pass_iff ⟨literal, fill⟩ p
  have hfail := verdict_eq_fail_iff ⟨literal, fill⟩ p
  refine ⟨hpass, fun hne => ?_, hfail, fun expected actual =>
    ⟨firstDivergence_eq_none_iff expected actual, firstDivergence_eq_some_iff expected actual,
      firstDivergence_comm expected actual⟩⟩
  cases hv : (⟨literal, fill⟩ : Trial).verdict p with
  | pass => exact absurd (hpass.1 hv) hne
  | fail d => exact ⟨d, rfl, (hfail d).1 hv⟩

end Trial

end CopyTrial
