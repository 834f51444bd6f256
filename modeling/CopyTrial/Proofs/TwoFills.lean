import CopyTrial.Proofs.FirstDivergence

/-!
# Two fills leave nothing masked

A primitive may leave a byte of the destination as it found it, which is as the fill. If the source
has that very byte there, the omission is masked: the copy looks right although it is not one. A
byte of the source is equal to at most one of two different fills, so that of two trials with
different fills at least one fails, and no later than at the byte that was left. One fill alone is
never enough: whichever byte of the source it is equal to can be spared by a primitive that passes.

## Main definitions

* `Trial.Leaves` — a primitive leaves the byte at an index as it found it.
* `Primitive.sparing` — copies all bytes but the one at an index, which it leaves.

## Main results

* `Trial.exists_fail_of_ne` — a trial fails no later than at a byte that is wrong.
* `Trial.verdict_sparing` — the verdict on a primitive that spares one byte.
* `Trial.two_fills_unmask` — what two different fills expose, and what a single one does not.
-/

set_option autoImplicit false

namespace CopyTrial

/-- A primitive leaves the byte at an index as it found it. -/
def Trial.Leaves (t : Trial) (p : Primitive) (i : Nat) : Prop :=
  (t.outcome p)[i]? = t.destination[i]?

instance (t : Trial) (p : Primitive) (i : Nat) : Decidable (t.Leaves p i) :=
  inferInstanceAs (Decidable (_ = _))

/-- Copies all bytes but the one at an index, which it leaves as it finds it. -/
def Primitive.sparing (i : Nat) : Primitive :=
  .callback "sparing" (.ofFn fun dest src size => (src.take size).set i (dest.getD i 0))

namespace Trial

variable {t : Trial} {p : Primitive} {i : Nat}

/-! ## Bytes that are wrong -/

/-- The destination holds the fill before the copy. -/
theorem getElem?_destination (hi : i < t.source.length) : t.destination[i]? = some t.fill := by
  rw [destination, List.getElem?_replicate, if_pos hi]

/-- **A trial fails no later than at a byte that is wrong.** -/
theorem exists_fail_of_ne (h : (t.outcome p)[i]? ≠ t.source[i]?) :
    ∃ d, t.verdict p = .fail d ∧ d.index ≤ i := by
  cases hv : t.verdict p with
  | pass => exact absurd (congrArg (·[i]?) ((t.verdict_eq_pass_iff p).1 hv)) h
  | fail d =>
    refine ⟨d, rfl, Nat.le_of_not_lt fun hlt => h ?_⟩
    exact (((t.verdict_eq_fail_iff p d).1 hv).least i hlt).symm

/-- A byte that was left is wrong unless the source has the fill there. -/
theorem exists_fail_of_leaves (hi : i < t.source.length) (hleft : t.Leaves p i)
    (hne : t.source[i]? ≠ some t.fill) : ∃ d, t.verdict p = .fail d ∧ d.index ≤ i := by
  apply exists_fail_of_ne
  rw [hleft, getElem?_destination hi]
  exact hne.symm

/-! ## Sparing one byte -/

/-- A primitive that spares a byte leaves the source with the fill at that index. -/
theorem outcome_sparing (hi : i < t.source.length) :
    t.outcome (.sparing i) = t.source.set i t.fill := by
  have hfound : t.destination.getD i 0 = t.fill := by
    rw [List.getD_eq_getElem?_getD, getElem?_destination hi, Option.getD_some]
  have hlength : t.destination.length = t.source.length := List.length_replicate
  show Routine.overwrite t.destination
    ((t.source.take t.source.length).set i (t.destination.getD i 0)) = t.source.set i t.fill
  rw [hfound, List.take_length, Routine.overwrite, List.length_set, hlength,
    List.take_of_length_le (Nat.le_of_eq (List.length_set ..)),
    List.drop_of_length_le (Nat.le_of_eq hlength), List.append_nil]

/-- A primitive that spares a byte does leave it. -/
theorem leaves_sparing (hi : i < t.source.length) : t.Leaves (.sparing i) i := by
  rw [Leaves, outcome_sparing hi, getElem?_destination hi, List.getElem?_set_self hi]

/-- **The verdict on a primitive that spares one byte**: it passes if the source has the fill there,
and otherwise fails at that byte. -/
theorem verdict_sparing (hi : i < t.source.length) :
    t.verdict (.sparing i) =
      if t.source[i] = t.fill then .pass else .fail ⟨i, t.fill, t.source[i]⟩ := by
  split
  · next heq =>
    rw [verdict_eq_pass_iff, outcome_sparing hi, ← heq, List.set_getElem_self]
  · next hne =>
    rw [verdict_eq_fail_iff, outcome_sparing hi]
    refine ⟨List.getElem?_eq_getElem hi, List.getElem?_set_self hi, Ne.symm hne, fun j hlt => ?_⟩
    exact (List.getElem?_set_ne (Nat.ne_of_gt hlt)).symm

/-! ## Two fills -/

/-- **Two different fills leave nothing masked.** If a primitive leaves the byte at some index of the
source, a zero byte after it included, as it found it under both fills, at least one of the two
trials fails, with an index that is no greater; so a primitive that passes under both has left no
byte in both. With one fill alone this does not hold: a primitive that spares a byte leaves it under
every fill, and passes under the one that the source has there, though under no other.

**Proof sketch.** The source has at most one of the two fills at the index, so the byte that was
left is wrong in one of the trials. -/
theorem two_fills_unmask (literal : Bytes) {fill fill' : UInt8} (h : fill ≠ fill') :
    let source := literal ++ [0]
    let t : Trial := ⟨literal, fill⟩
    let t' : Trial := ⟨literal, fill'⟩
    (∀ (p : Primitive) (i : Nat), i < source.length → t.Leaves p i → t'.Leaves p i →
      ∃ d, (t.verdict p = .fail d ∨ t'.verdict p = .fail d) ∧ d.index ≤ i) ∧
    (∀ p : Primitive, t.verdict p = .pass → t'.verdict p = .pass →
      ∀ i < source.length, ¬ (t.Leaves p i ∧ t'.Leaves p i)) ∧
    ∀ (i : Nat) (hi : i < source.length) (any : UInt8),
      (⟨literal, any⟩ : Trial).Leaves (.sparing i) i ∧
      (⟨literal, any⟩ : Trial).verdict (.sparing i) =
        if source[i] = any then .pass else .fail ⟨i, any, source[i]⟩ := by
  intro source t t'
  have hexposed : ∀ (p : Primitive) (i : Nat), i < source.length → t.Leaves p i →
      t'.Leaves p i → ∃ d, (t.verdict p = .fail d ∨ t'.verdict p = .fail d) ∧ d.index ≤ i := by
    intro p i hi hleft hleft'
    by_cases hsource : source[i]? = some fill
    · have hne : t'.source[i]? ≠ some t'.fill := by
        intro heq
        exact h (Option.some.inj (hsource.symm.trans heq))
      obtain ⟨d, hfail, hle⟩ := exists_fail_of_leaves hi hleft' hne
      exact ⟨d, .inr hfail, hle⟩
    · obtain ⟨d, hfail, hle⟩ := exists_fail_of_leaves hi hleft hsource
      exact ⟨d, .inl hfail, hle⟩
  refine ⟨hexposed, fun p hpass hpass' i hi hboth => ?_, fun i hi any => ?_⟩
  · obtain ⟨d, hfail, -⟩ := hexposed p i hi hboth.1 hboth.2
    rw [hpass, hpass'] at hfail
    obtain hfail | hfail := hfail <;> cases hfail
  · exact ⟨leaves_sparing hi, verdict_sparing hi⟩

/-- The theorem on a copy that stops before the zero byte in the end: it passes with zeros in the
destination, and fails at that byte with others. -/
theorem two_fills_unmask_terminator :
    (0 : UInt8) ≠ 255 ∧ usual.Leaves (.truncate 11) 11 ∧
      ({ usual with fill := 255 } : Trial).Leaves (.truncate 11) 11 ∧
      usual.verdict (.truncate 11) = .pass ∧
      ∃ d, ({ usual with fill := 255 } : Trial).verdict (.truncate 11) = .fail d ∧
        d.index ≤ 11 := by
  have hne : (0 : UInt8) ≠ 255 := by decide
  have hleft : usual.Leaves (.truncate 11) 11 := by decide +kernel
  have hleft' : ({ usual with fill := 255 } : Trial).Leaves (.truncate 11) 11 := by decide +kernel
  have hpass : usual.verdict (.truncate 11) = .pass := by decide +kernel
  obtain ⟨hexposed, -, -⟩ := two_fills_unmask usual.literal hne
  obtain ⟨d, hfail | hfail, hle⟩ := hexposed (.truncate 11) 11 (by decide +kernel) hleft hleft'
  · cases hpass.symm.trans hfail
  · exact ⟨hne, hleft, hleft', hpass, d, hfail, hle⟩

end Trial

end CopyTrial
