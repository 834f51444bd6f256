import CopyTrial.Fill
import CopyTrial.Proofs.Command.Run
import CopyTrial.Proofs.Numeral.Spelling
import CopyTrial.Proofs.Text.Trim

/-!
# The names of fill bytes

A text names a byte in decimal or, after a mark, in hexadecimal, where underscores may stand among
the digits. Blanks around it do not matter.

## Main definitions

* `Fill.Names` — what names a byte, without blanks around it.

## Main results

* `Fill.resolve_names_byte` — which texts name which byte, and what becomes of all others.
-/

set_option autoImplicit false

namespace CopyTrial.Fill

/-- What names a byte, without blanks around it: after `0x` or `0X` a hexadecimal numeral among
whose characters underscores do not count, and otherwise a decimal one. -/
inductive Names : List Char → UInt8 → Prop
  | hexadecimal {mark : Char} {rest : List Char} {v : UInt8} (hmark : mark = 'x' ∨ mark = 'X')
      (h : Numeral.Denotes 16 (rest.filter (· != '_')) v.toNat) : Names ('0' :: mark :: rest) v
  | decimal {w : List Char} {v : UInt8}
      (hmark : ∀ mark rest, w = '0' :: mark :: rest → mark ≠ 'x' ∧ mark ≠ 'X')
      (h : Numeral.Denotes 10 w v.toNat) : Names w v

/-- A numeral of a byte is read as the byte. -/
theorem map_read?_eq_some_iff {base : Nat} (hpos : 0 < base) (hbase : base ≤ 16) (cs : List Char)
    (v : UInt8) :
    (Numeral.read? base 256 cs).map UInt8.ofNat = some v ↔ Numeral.Denotes base cs v.toNat := by
  have hread : ∀ n, Numeral.read? base 256 cs = some n ↔ Numeral.Denotes base cs n ∧ n < 256 :=
    fun n => Numeral.read?_eq_some_iff_denotes hpos hbase (by decide) cs
  simp only [Option.map_eq_some_iff, hread]
  constructor
  · rintro ⟨n, ⟨hdenotes, hlt⟩, rfl⟩
    rwa [UInt8.toNat_ofNat_of_lt' hlt]
  · intro h
    exact ⟨v.toNat, ⟨h, v.toNat_lt⟩, UInt8.ofNat_toNat⟩

/-- **What is read as a byte** are its names. -/
theorem readChars?_eq_some_iff (w : List Char) (v : UInt8) :
    (readChars? w).map UInt8.ofNat = some v ↔ Names w v := by
  constructor
  · intro h
    rw [readChars?.eq_def] at h
    split at h
    · rw [map_read?_eq_some_iff (by decide) (by decide)] at h
      exact .hexadecimal (.inl rfl) h
    · rw [map_read?_eq_some_iff (by decide) (by decide)] at h
      exact .hexadecimal (.inr rfl) h
    · next hlower hupper =>
      rw [map_read?_eq_some_iff (by decide) (by decide)] at h
      refine .decimal (fun mark rest hw => ⟨?_, ?_⟩) h
      · rintro rfl
        exact hlower rest hw
      · rintro rfl
        exact hupper rest hw
  · rintro (⟨rfl | rfl, h⟩ | ⟨hmark, h⟩)
    · rwa [readChars?, map_read?_eq_some_iff (by decide) (by decide)]
    · rwa [readChars?, map_read?_eq_some_iff (by decide) (by decide)]
    · rw [readChars?.eq_def]
      split
      · exact absurd rfl (hmark _ _ rfl).1
      · exact absurd rfl (hmark _ _ rfl).2
      · rwa [map_read?_eq_some_iff (by decide) (by decide)]

/-- A text resolves to a byte if what is left of it without the blanks around it names the byte. -/
theorem resolve_eq_ok_iff (raw : String) (v : UInt8) :
    resolve raw = .ok v ↔ ∃ w, Text.TrimsTo raw.toList w ∧ Names w v := by
  simp only [Text.trimsTo_iff, exists_eq_left', ← readChars?_eq_some_iff]
  rw [resolve, read?]
  cases (readChars? (Text.trimChars raw.toList)).map UInt8.ofNat <;> simp

/-- A text that resolves to no byte is told as it is. -/
theorem resolve_eq_error_iff (raw : String) (failure : Failure) :
    resolve raw = .error failure ↔ failure = .invalidFill raw ∧
      ¬ ∃ w v, Text.TrimsTo raw.toList w ∧ Names w v := by
  rw [exists_comm]
  simp only [← resolve_eq_ok_iff]
  rw [resolve]
  cases read? raw <;> simp [eq_comm]

/-- **The names of fill bytes.** A text resolves to a byte exactly if what is left of it without the
blanks around it is a numeral of the byte: a hexadecimal one after `0x` or `0X`, underscores not
counted, and a decimal one where it does not begin so. Every other text resolves to the failure that
tells it as it is, blanks included, and a run with such a fill comes to nothing but that. Zeros in
front of the digits do not matter in either base, however many there are. -/
theorem resolve_names_byte :
    (∀ raw v, resolve raw = .ok v ↔ ∃ w, Text.TrimsTo raw.toList w ∧ Names w v) ∧
    (∀ raw failure, resolve raw = .error failure ↔ failure = .invalidFill raw ∧
      ¬ ∃ w v, Text.TrimsTo raw.toList w ∧ Names w v) ∧
    (∀ (options : RunOptions) variableValue (machine : Machine) kind failure,
      Kind.resolve options.primitive = .ok kind → resolve options.fill = .error failure →
      machine.run (options.run variableValue) = (.error failure, machine)) ∧
    ∀ base, base = 10 ∨ base = 16 → ∀ zeros digits n,
      (Numeral.Spells base (List.replicate zeros '0' ++ digits) n ↔
        Numeral.Spells base digits n) := by
  refine ⟨resolve_eq_ok_iff, resolve_eq_error_iff, ?_, ?_⟩
  · intro options variableValue machine kind failure hkind hfill
    have hread : Kind.read? options.primitive = some kind := by
      rw [Kind.resolve] at hkind
      cases h : Kind.read? options.primitive with
      | none => rw [h] at hkind; cases hkind
      | some found => rw [h] at hkind; exact congrArg some (Except.ok.inj hkind)
    obtain ⟨rfl, hnone⟩ := (resolve_eq_error_iff _ _).1 hfill
    refine RunOptions.run_of_invalid_fill hread ?_
    cases h : read? options.fill with
    | none => rfl
    | some v =>
      have hok : resolve options.fill = .ok v := by rw [resolve, h]
      obtain ⟨w, hw⟩ := (resolve_eq_ok_iff _ _).1 hok
      exact absurd ⟨w, v, hw⟩ hnone
  · rintro base (rfl | rfl) zeros digits n
    · exact Numeral.spells_replicate_append (by decide) (by decide) zeros digits n
    · exact Numeral.spells_replicate_append (by decide) (by decide) zeros digits n

/-- The theorem on a text with blanks around it, underscores, a zero in front and letters of either
case, and on a number that fits no byte. -/
theorem resolve_names_byte_underscores :
    (∃ w, Text.TrimsTo "\t0X_0f_F\u3000".toList w ∧ Names w 255) ∧
    Kind.resolve "noop" = .ok .noop ∧ resolve " 256" = .error (.invalidFill " 256") ∧
    ({} : Machine).run (RunOptions.run { primitive := "noop", fill := " 256" } none) =
      (.error (.invalidFill " 256"), {}) ∧
    (10 = 10 ∨ 10 = 16) ∧ Numeral.Spells 10 (List.replicate 3 '0' ++ ['7']) 7 := by
  obtain ⟨hok, -, hrun, hzeros⟩ := resolve_names_byte
  have hread : read? "\t0X_0f_F\u3000" = some 255 := by decide
  have hmarked : resolve "\t0X_0f_F\u3000" = .ok 255 := by rw [resolve, hread]
  have hnone : read? " 256" = none := by decide
  have hlarge : resolve " 256" = .error (.invalidFill " 256") := by rw [resolve, hnone]
  have hnamed : Kind.read? "noop" = some .noop := by decide
  have hkind : Kind.resolve "noop" = .ok .noop := by rw [Kind.resolve, hnamed]
  have hseven : Numeral.Spells 10 ['7'] 7 := ⟨[7], .cons ⟨by decide, .inl rfl⟩ .nil, rfl⟩
  exact ⟨(hok _ _).1 hmarked, hkind, hlarge, hrun _ _ _ _ _ hkind hlarge, .inl rfl,
    (hzeros 10 (.inl rfl) 3 _ _).2 hseven⟩

end CopyTrial.Fill
