import Mathlib.Data.Nat.ModEq
import CopyTrial.Pattern
import CopyTrial.Proofs.Copy
import CopyTrial.Proofs.FirstDivergence

/-!
# What the pattern betrays

A byte of the pattern is one more than the remainder of its index modulo 251. That is a byte itself,
reached without a carry, and never zero; and two of the bytes are equal exactly when their indices
are congruent. So a copy that ends early in a destination of zeros is found out at the very byte
where it ended, and one that starts at a wrong place at its first byte, unless it is whole periods
away.

## Main definitions

* `Byte.ofNat?`, `Byte.add?` — arithmetic that has no result beyond a byte.
* `Pattern.byte`, `Pattern.byte?` — a byte of the pattern, and the same by this arithmetic.
* `Pattern.ofSize?` — the pattern by this arithmetic, step for step.

## Main results

* `Primitive.firstDivergence_truncate` — where a copy that ends early is found out.
* `Pattern.toNat_byte`, `Pattern.byte_eq_iff` — the bytes of the pattern, and which are equal.
* `Pattern.exposes_wrong_copies` — the pattern, and the copies that it exposes.
-/

set_option autoImplicit false

namespace CopyTrial

/-! ## Arithmetic within a byte -/

namespace Byte

/-- A number as a byte, if it is one. -/
def ofNat? (n : Nat) : Option UInt8 := if n < UInt8.size then some (UInt8.ofNat n) else none

/-- A sum, if it is a byte. -/
def add? (a b : UInt8) : Option UInt8 :=
  if a.toNat + b.toNat < UInt8.size then some (a + b) else none

/-- A number becomes the byte that denotes it, or none. -/
theorem ofNat?_eq_some_iff {n : Nat} {b : UInt8} : ofNat? n = some b ↔ b.toNat = n := by
  have hb : b.toNat < 256 := b.toNat_lt
  simp only [ofNat?, UInt8.size, Option.ite_none_right_eq_some, Option.some.injEq,
    ← UInt8.toNat_inj, UInt8.toNat_ofNat']
  omega

/-- A sum is the byte that denotes it, or none. -/
theorem add?_eq_some_iff {a b c : UInt8} : add? a b = some c ↔ c.toNat = a.toNat + b.toNat := by
  have hc : c.toNat < 256 := c.toNat_lt
  simp only [add?, UInt8.size, Option.ite_none_right_eq_some, Option.some.injEq,
    ← UInt8.toNat_inj, UInt8.toNat_add]
  omega

end Byte

/-! ## Copies that end early -/

/-- **Where a copy that ends early is found out.** If no byte of the source is the fill, a truncated
copy of all of it diverges at the limit, and nowhere if the limit is not within the source. -/
theorem Primitive.firstDivergence_truncate {src : Bytes} {fill : UInt8} (h : fill ∉ src)
    (limit : UInt64) :
    firstDivergence src ((truncate limit).copy (List.replicate src.length fill) src src.length) =
      src[limit.toNat]?.map fun b => ⟨limit.toNat, fill, b⟩ := by
  have hleft := (Kind.truncate limit).getElem?_copy_filled src fill
  simp only [Kind.reach, Kind.primitive, Nat.lt_min] at hleft
  cases hlimit : src[limit.toNat]? with
  | none =>
    -- all of the source was copied
    have hle : src.length ≤ limit.toNat := List.getElem?_eq_none_iff.1 hlimit
    rw [Option.map_none, firstDivergence_eq_none_iff]
    intro i hi
    rw [hleft, if_pos (by omega)]
  | some b =>
    obtain ⟨hend, -⟩ := List.getElem?_eq_some_iff.1 hlimit
    have hactual : ((truncate limit).copy (List.replicate src.length fill) src
        src.length)[limit.toNat]? = some fill := by
      rw [hleft, if_neg (by omega), if_pos hend]
    have hdiffer : fill ≠ b := by
      rintro rfl
      exact h (List.mem_of_getElem? hlimit)
    rw [Option.map_some, firstDivergence_eq_some_iff]
    refine ⟨hlimit, hactual, hdiffer, fun i hi => ?_⟩
    rw [hleft, if_pos ⟨Nat.lt_trans hi hend, hi⟩]

/-! ## Bytes of the pattern -/

namespace Pattern

/-- The byte of the pattern at an index. -/
def byte (i : Nat) : UInt8 := UInt8.ofNat (i % 251) + 1

/-- The byte of the pattern at an index, if no step on the way to it exceeds a byte. -/
def byte? (i : Nat) : Option UInt8 := do
  let rest ← Byte.ofNat? (i % 251)
  Byte.add? rest 1

/-- The pattern, if no step on the way to one of its bytes exceeds a byte. -/
def ofSize? (size : Nat) : Option Bytes := (List.range size).mapM byte?

/-- **A byte of the pattern is one more than the remainder of its index.** -/
theorem toNat_byte (i : Nat) : (byte i).toNat = i % 251 + 1 := by
  simp only [byte, UInt8.toNat_add, UInt8.toNat_ofNat', UInt8.toNat_one]
  omega

/-- No step on the way to a byte of the pattern exceeds a byte. -/
theorem byte?_eq (i : Nat) : byte? i = some (byte i) := by
  have hrest : (UInt8.ofNat (i % 251)).toNat = i % 251 := by
    rw [UInt8.toNat_ofNat']
    omega
  have hsum : (byte i).toNat = (UInt8.ofNat (i % 251)).toNat + (1 : UInt8).toNat := by
    rw [hrest, toNat_byte, UInt8.toNat_one]
  rw [byte?, Byte.ofNat?_eq_some_iff.2 hrest]
  exact Byte.add?_eq_some_iff.2 hsum

/-- No byte of the pattern is zero. -/
theorem byte_ne_zero (i : Nat) : byte i ≠ 0 := by
  intro heq
  have hbyte := toNat_byte i
  rw [heq, UInt8.toNat_zero] at hbyte
  omega

/-- **Two bytes of the pattern are equal exactly when their indices are congruent.** -/
theorem byte_eq_iff {i j : Nat} : byte i = byte j ↔ i ≡ j [MOD 251] := by
  rw [← UInt8.toNat_inj, toNat_byte, toNat_byte, Nat.add_right_cancel_iff]
  rfl

/-- Two bytes of the pattern are equal if they are whole periods apart, and only then. -/
theorem byte_add_eq_iff {i k : Nat} : byte (i + k) = byte i ↔ 251 ∣ k := by
  rw [byte_eq_iff, Nat.ModEq]
  omega

/-! ## The pattern -/

section

variable (size k : Nat)

/-- The pattern has as many bytes as asked for. -/
@[simp] theorem length_pattern : (pattern size).length = size := by simp [pattern]

/-- What the pattern has at an index. -/
theorem getElem?_pattern (i : Nat) :
    (pattern size)[i]? = if i < size then some (byte i) else none := by
  split
  · next hi => simp [pattern, byte, hi]
  · next hi => simp [pattern, Nat.le_of_not_lt hi]

/-- No step on the way to the pattern exceeds a byte. -/
theorem ofSize?_eq : ofSize? size = some (pattern size) := by
  rw [ofSize?, funext byte?_eq]
  exact List.mapM_pure

/-- No byte of the pattern is zero. -/
theorem zero_not_mem_pattern : 0 ∉ pattern size := by
  intro h
  obtain ⟨i, -, hi⟩ := List.mem_map.1 h
  exact byte_ne_zero i hi

/-- A copy of the pattern that ends early in zeros is found out at its limit. -/
theorem firstDivergence_truncate_pattern (limit : UInt64) :
    firstDivergence (pattern size)
        ((Primitive.truncate limit).copy (List.replicate size 0) (pattern size) size) =
      if limit.toNat < size then some ⟨limit.toNat, 0, byte limit.toNat⟩ else none := by
  have hscan := Primitive.firstDivergence_truncate (zero_not_mem_pattern size) limit
  rw [length_pattern, getElem?_pattern] at hscan
  rw [hscan]
  split <;> rfl

/-- What the pattern has at an index beyond an offset. -/
theorem getElem?_drop_pattern (i : Nat) :
    ((pattern (size + k)).drop k)[i]? = if i < size then some (byte (i + k)) else none := by
  simp only [List.getElem?_drop, getElem?_pattern, Nat.add_comm k i, Nat.add_lt_add_iff_right]

variable {size k}

/-- A pattern that is shifted by whole periods is not changed. -/
theorem drop_pattern_of_dvd (h : 251 ∣ k) : (pattern (size + k)).drop k = pattern size := by
  ext1 i
  rw [getElem?_drop_pattern, getElem?_pattern, byte_add_eq_iff.2 h]

/-- A pattern that is shifted otherwise is found out at its first byte. -/
theorem firstDivergence_drop_pattern (h : ¬ 251 ∣ k) (hsize : 0 < size) :
    firstDivergence (pattern size) ((pattern (size + k)).drop k) =
      some ⟨0, byte k, byte 0⟩ := by
  rw [firstDivergence_eq_some_iff]
  refine ⟨?_, ?_, ?_, fun i hi => absurd hi (Nat.not_lt_zero i)⟩
  · rw [getElem?_pattern, if_pos hsize]
  · rw [getElem?_drop_pattern, if_pos hsize, Nat.zero_add]
  · intro heq
    have hzero : byte (0 + k) = byte 0 := (congrArg byte (Nat.zero_add k)).trans heq
    exact h (byte_add_eq_iff.1 hzero)

end

/-- **The pattern exposes copies that end early or start at a wrong place.** It has as many bytes as
asked for, and no step on the way to them exceeds a byte. None of them is zero, and two are equal
exactly when their indices are congruent modulo 251. So a truncated copy into as many zeros diverges
at its limit, where a zero still stands, and nowhere if the limit is not within the pattern. What a
longer pattern has from an offset on is the pattern itself if the offset is a number of periods, and
otherwise diverges from it, either way round, at index 0.

**Proof sketch.** All of it follows from the value of a byte. A truncated copy leaves a zero at its
limit, and the pattern has none. The first byte from an offset on is that of the offset, which is
equal to the first byte of all only if the offset is a multiple of 251. -/
theorem exposes_wrong_copies (size : Nat) :
    (pattern size).length = size ∧
    ofSize? size = some (pattern size) ∧
    0 ∉ pattern size ∧
    (∀ i < size, ∀ j < size, (pattern size)[i]? = (pattern size)[j]? ↔ i ≡ j [MOD 251]) ∧
    (∀ limit : UInt64,
      let left := (Primitive.truncate limit).copy (List.replicate size 0) (pattern size) size
      firstDivergence (pattern size) left =
        if limit.toNat < size then some ⟨limit.toNat, 0, byte limit.toNat⟩ else none) ∧
    ∀ k,
      let shifted := (pattern (size + k)).drop k
      (251 ∣ k → shifted = pattern size) ∧
      (¬ 251 ∣ k → 0 < size →
        firstDivergence (pattern size) shifted = some ⟨0, byte k, byte 0⟩ ∧
        firstDivergence shifted (pattern size) = some ⟨0, byte 0, byte k⟩) := by
  refine ⟨length_pattern size, ofSize?_eq size, zero_not_mem_pattern size, fun i hi j hj => ?_,
    firstDivergence_truncate_pattern size, fun k => ⟨drop_pattern_of_dvd, fun hk hsize => ?_⟩⟩
  · rw [getElem?_pattern, getElem?_pattern, if_pos hi, if_pos hj, Option.some.injEq, byte_eq_iff]
  · have hscan := firstDivergence_drop_pattern hk hsize
    refine ⟨hscan, ?_⟩
    rw [firstDivergence_comm (pattern size), hscan]
    rfl

/-- The theorem on limits and offsets in the second period and beyond it. -/
theorem exposes_wrong_copies_secondPeriod :
    3 < 600 ∧ 254 < 600 ∧ (pattern 600)[3]? = (pattern 600)[254]? ∧
    firstDivergence (pattern 600)
        ((Primitive.truncate 251).copy (List.replicate 600 0) (pattern 600) 600) =
      some ⟨251, 0, 1⟩ ∧
    251 ∣ 502 ∧ (pattern 1102).drop 502 = pattern 600 ∧
    ¬ 251 ∣ 252 ∧ 0 < 600 ∧
    firstDivergence (pattern 600) ((pattern 852).drop 252) = some ⟨0, 2, 1⟩ := by
  obtain ⟨-, -, -, hbytes, hlimits, hoffsets⟩ := exposes_wrong_copies 600
  have hequal := (hbytes 3 (by decide) 254 (by decide)).2 (by decide)
  have hwhole := (hoffsets 502).1 (by decide)
  have hpart := (hoffsets 252).2 (by decide) (by decide)
  exact ⟨by decide, by decide, hequal, hlimits 251, by decide, hwhole, by decide, by decide,
    hpart.1⟩

end Pattern

end CopyTrial
