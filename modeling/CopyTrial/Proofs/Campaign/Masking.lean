import CopyTrial.Campaign.Run
import CopyTrial.Machine
import CopyTrial.Proofs.Copy
import CopyTrial.Proofs.FirstDivergence

/-!
# Verdicts on primitives that have a name

A primitive that is chosen by name copies the source up to a limit and leaves the fill beyond it.
Bytes beyond the limit that are equal to the fill are masked: the destination holds them although
they were not copied. So a trial passes exactly when all bytes beyond the limit are masked, and
otherwise it fails at the first one that is not, which may stand well beyond the limit.

## Main definitions

* `Kind.limit` — how far a primitive of a kind copies.
* `Masked`, `IsFirstUnmasked` — all bytes beyond a limit are masked, and the first that is not.

## Main results

* `Trial.getElem?_outcome` — what a primitive of a kind leaves, byte by byte.
* `Trial.verdict_primitive_eq_pass_iff`, `Trial.verdict_primitive_eq_fail_iff` — the verdict on a
  primitive of a kind.
* `Scenario.run_verdict` — what comes of a scenario whose primitive has a known name.
-/

set_option autoImplicit false

namespace CopyTrial

/-- How far a primitive of a kind copies a source of the given length. -/
def Kind.limit : Kind → Nat → Nat
  | .reference, length => length
  | .wordwise, length => length
  | .noop, _ => 0
  | .truncate limit, _ => limit.toNat
  | .external, length => length

/-- All bytes from a limit on are equal to the fill. -/
def Masked (source : Bytes) (fill : UInt8) (limit : Nat) : Prop :=
  ∀ j, limit ≤ j → j < source.length → source[j]? = some fill

/-- A divergence is at the first byte from a limit on that is not equal to the fill, which stands in
its place. -/
structure IsFirstUnmasked (source : Bytes) (fill : UInt8) (limit : Nat) (d : Divergence) :
    Prop where
  limit_le : limit ≤ d.index
  expected_at : source[d.index]? = some d.expected
  actual_eq : d.actual = fill
  differ : d.expected ≠ fill
  least : ∀ j, limit ≤ j → j < d.index → source[j]? = some fill

/-! ## Limits -/

section

variable {source : Bytes} {fill : UInt8} {limit limit' : Nat}

/-- Nothing stands beyond the end. -/
theorem masked_length (source : Bytes) (fill : UInt8) : Masked source fill source.length :=
  fun _ hlimit hlt => absurd hlt (Nat.not_lt_of_le hlimit)

/-- Bytes that are masked remain so under a greater limit. -/
theorem Masked.mono (h : Masked source fill limit) (hle : limit ≤ limit') :
    Masked source fill limit' :=
  fun j hlimit hlt => h j (Nat.le_trans hle hlimit) hlt

/-- The first byte that is not masked does not come earlier under a greater limit. -/
theorem IsFirstUnmasked.index_le {d d' : Divergence} (h : IsFirstUnmasked source fill limit d)
    (h' : IsFirstUnmasked source fill limit' d') (hle : limit ≤ limit') : d.index ≤ d'.index := by
  refine Nat.le_of_not_lt fun hlt => ?_
  have hmasked := h.least d'.index (Nat.le_trans hle h'.limit_le) hlt
  rw [h'.expected_at] at hmasked
  exact h'.differ (Option.some.inj hmasked)

end

/-- A primitive of a kind reaches its limit, or all that it may copy. -/
theorem Kind.reach_eq_min (kind : Kind) (length : Nat) :
    kind.reach length = min length (kind.limit length) := by
  cases kind with
  | noop => exact (Nat.min_zero length).symm
  | truncate limit => rfl
  | _ => exact (Nat.min_self length).symm

/-! ## The verdict -/

namespace Trial

variable (t : Trial) (kind : Kind)

/-- **What a primitive of a kind leaves, byte by byte**: the source below the limit, and the fill
from there to the end. -/
theorem getElem?_outcome (j : Nat) :
    (t.outcome kind.primitive)[j]? =
      if j < kind.limit t.source.length then t.source[j]?
      else if j < t.source.length then some t.fill else none := by
  rw [outcome, destination, kind.getElem?_copy_filled, kind.reach_eq_min]
  by_cases hend : j < t.source.length
  · simp only [Nat.lt_min, hend, true_and]
  · rw [if_neg (by omega), if_neg hend, List.getElem?_eq_none (by omega), ite_self]

/-- A trial of a primitive of a kind passes exactly when all bytes from its limit on are masked. -/
theorem verdict_primitive_eq_pass_iff :
    t.verdict kind.primitive = .pass ↔
      Masked t.source t.fill (kind.limit t.source.length) := by
  rw [verdict_eq_pass_iff]
  constructor
  · intro heq j hlimit hend
    have hj := t.getElem?_outcome kind j
    rw [heq, if_neg (Nat.not_lt_of_le hlimit), if_pos hend] at hj
    exact hj
  · intro hmasked
    refine List.ext_getElem? fun j => ?_
    rw [getElem?_outcome]
    split
    · rfl
    · next hlimit =>
      split
      · next hend => exact (hmasked j (Nat.le_of_not_lt hlimit) hend).symm
      · next hend => exact (List.getElem?_eq_none (Nat.le_of_not_lt hend)).symm

/-- A first divergence is at the first byte that is not masked.

**Proof sketch.** Source and destination agree below the limit, so they diverge from it on, where
the destination holds the fill. -/
theorem isFirstDivergence_outcome_iff (d : Divergence) :
    IsFirstDivergence t.source (t.outcome kind.primitive) d ↔
      IsFirstUnmasked t.source t.fill (kind.limit t.source.length) d := by
  have hbyte := t.getElem?_outcome kind
  constructor
  · intro h
    obtain ⟨hend, -⟩ := List.getElem?_eq_some_iff.1 h.expected_at
    have hlimit : ¬ d.index < kind.limit t.source.length := by
      intro hlt
      have heq := hbyte d.index
      rw [if_pos hlt, h.actual_at, h.expected_at] at heq
      exact h.differ (Option.some.inj heq)
    have hactual : d.actual = t.fill := by
      have heq := hbyte d.index
      rw [if_neg hlimit, if_pos hend, h.actual_at] at heq
      exact Option.some.inj heq
    refine ⟨Nat.le_of_not_lt hlimit, h.expected_at, hactual,
      fun heq => h.differ (hactual.trans heq.symm), fun j hj hlt => ?_⟩
    rw [h.least j hlt, hbyte, if_neg (Nat.not_lt_of_le hj), if_pos (Nat.lt_trans hlt hend)]
  · intro h
    obtain ⟨hend, -⟩ := List.getElem?_eq_some_iff.1 h.expected_at
    refine ⟨h.expected_at, ?_, fun heq => h.differ (heq.symm.trans h.actual_eq), fun j hlt => ?_⟩
    · rw [hbyte, if_neg (Nat.not_lt_of_le h.limit_le), if_pos hend, h.actual_eq]
    · rw [hbyte]
      split
      · rfl
      · next hlimit =>
        rw [if_pos (Nat.lt_trans hlt hend)]
        exact h.least j (Nat.le_of_not_lt hlimit) hlt

/-- A trial of a primitive of a kind fails with a divergence exactly when it is at the first byte
that is not masked. -/
theorem verdict_primitive_eq_fail_iff (d : Divergence) :
    t.verdict kind.primitive = .fail d ↔
      IsFirstUnmasked t.source t.fill (kind.limit t.source.length) d := by
  rw [verdict_eq_fail_iff, isFirstDivergence_outcome_iff]

end Trial

/-! ## Scenarios -/

namespace Scenario

/-- **What comes of a scenario whose primitive has a known name.** On any machine there is a result,
which holds the verdict of the attempt. It passes exactly when all bytes of the source, a zero byte
after it included, are masked from the limit of the primitive on, and otherwise it fails at the
first one that is not. So it passes if the primitive copies everything; and with a greater limit a
truncated copy that passed does so again, and one that fails does so no earlier. -/
theorem run_verdict {s : Scenario} {kind : Kind} (h : Kind.read? s.primitive = some kind)
    (family : String) (machine : Machine) :
    let source := Bytes.ofText s.source ++ [0]
    let verdict := (s.attempt kind).verdict
    (∃ result after,
      (s.run family : StateM Machine (Result × Option Attempt)) machine =
        ((result, some (s.attempt kind)), after) ∧
      result.observed = some (.ofVerdict verdict)) ∧
    (verdict = .pass ↔ Masked source s.fill (kind.limit source.length)) ∧
    (¬ Masked source s.fill (kind.limit source.length) → ∃ d, verdict = .fail d) ∧
    (∀ d, verdict = .fail d ↔ IsFirstUnmasked source s.fill (kind.limit source.length) d) ∧
    (kind = .reference ∨ kind = .wordwise ∨ kind = .external → verdict = .pass) ∧
    ∀ limit limit' : UInt64, limit ≤ limit' →
      ((s.attempt (.truncate limit)).verdict = .pass →
        (s.attempt (.truncate limit')).verdict = .pass) ∧
      ∀ d d', (s.attempt (.truncate limit)).verdict = .fail d →
        (s.attempt (.truncate limit')).verdict = .fail d' → d.index ≤ d'.index := by
  intro source verdict
  have hpass := fun kind => s.trial.verdict_primitive_eq_pass_iff kind
  have hfail := fun kind => s.trial.verdict_primitive_eq_fail_iff kind
  refine ⟨?_, hpass kind, fun hmasked => ?_, hfail kind, fun hkind => ?_,
    fun limit limit' hle => ⟨fun hp => ?_, fun d d' hd hd' => ?_⟩⟩
  · rw [run, h]
    exact ⟨_, _, rfl, rfl⟩
  · cases hv : verdict with
    | pass => exact absurd ((hpass kind).1 hv) hmasked
    | fail d => exact ⟨d, rfl⟩
  · refine (hpass kind).2 ?_
    obtain rfl | rfl | rfl := hkind <;> exact masked_length s.trial.source s.fill
  · exact (hpass (.truncate limit')).2 (((hpass (.truncate limit)).1 hp).mono hle)
  · exact ((hfail (.truncate limit) d).1 hd).index_le ((hfail (.truncate limit') d').1 hd') hle

/-- A copy that is cut off within a run of fill bytes: the divergence stands beyond the run. -/
def cutWithinRun : Scenario where
  name := "cut"
  primitive := " Truncate:3 "
  source := "abxxxc\x00"
  fill := 120
  expect := .pass

/-- The theorem on a copy that is cut off within a run of fill bytes, which fails beyond them. -/
theorem run_verdict_cutWithinRun :
    Kind.read? cutWithinRun.primitive = some (.truncate 3) ∧
    ∃ result after,
      (cutWithinRun.run "f" : StateM Machine (Result × Option Attempt)) {} =
        ((result, some (cutWithinRun.attempt (.truncate 3))), after) ∧
      result.observed = some (.fail ⟨5, 120, 99⟩) := by
  have hkind : Kind.read? cutWithinRun.primitive = some (.truncate 3) := by decide +kernel
  obtain ⟨⟨result, after, hrun, hobserved⟩, -, -, hfail, -⟩ := run_verdict hkind "f" {}
  have hfilled : ∀ j < 5, 3 ≤ j →
      (Bytes.ofText cutWithinRun.source ++ [0])[j]? = some cutWithinRun.fill := by decide +kernel
  have hverdict : (cutWithinRun.attempt (.truncate 3)).verdict = .fail ⟨5, 120, 99⟩ :=
    (hfail ⟨5, 120, 99⟩).2 ⟨by decide, by decide +kernel, rfl, by decide,
      fun j hlimit hlt => hfilled j hlt hlimit⟩
  rw [hverdict] at hobserved
  exact ⟨hkind, result, after, hrun, hobserved⟩

end Scenario

end CopyTrial
