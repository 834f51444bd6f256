import CopyTrial.Numeral
import CopyTrial.Proofs.Json.Reads

/-!
# Numerals

A numeral is read if its digits have a value below the bound. That the value stays below the bound
digit by digit makes no difference, because it never falls.

The zeros in front of a numeral do not change its value, so the number can be told from its padded
digits. There are as many of these as the width, unless the number has more digits than that.
Numerals of one width compare as texts in the way their numbers do.

## Main definitions

* `Numeral.AreDigits`, `Numeral.worthFrom` — digits of a base, and their value, however large.

## Main results

* `Numeral.read?_eq_some_iff` — which characters are read as a numeral, and of which value.
* `Numeral.areDigits_ten_iff`, `Numeral.worthFrom_ten` — decimal digits and their value.
* `Numeral.ofDigitChars_padded` — the value of padded digits.
* `Numeral.padded_injective` — the padded digits of different numbers are different.
* `Numeral.length_padded` — how many digits there are.
* `Numeral.padded_append_cons_lt_iff` — numerals of one width stand in the order of their numbers.
-/

set_option autoImplicit false

namespace CopyTrial.Numeral

/-! ## Reading -/

/-- Only digits of a base, of either case. -/
def AreDigits (base : Nat) (cs : List Char) : Prop := ∀ c ∈ cs, (digit? base c).isSome

/-- The value of digits that follow others of value `sofar`, however large it is. What is no digit
counts as zero. -/
def worthFrom (base sofar : Nat) : List Char → Nat
  | [] => sofar
  | c :: cs => worthFrom base (sofar * base + (digit? base c).getD 0) cs

/-- The value of digits does not fall below that of those before them. -/
theorem le_worthFrom {base : Nat} (hbase : 0 < base) (sofar : Nat) (cs : List Char) :
    sofar ≤ worthFrom base sofar cs := by
  induction cs generalizing sofar with
  | nil => exact Nat.le_refl _
  | cons c cs ih =>
    calc sofar ≤ sofar * base := Nat.le_mul_of_pos_right sofar hbase
      _ ≤ sofar * base + (digit? base c).getD 0 := Nat.le_add_right _ _
      _ ≤ worthFrom base (sofar * base + (digit? base c).getD 0) cs := ih _

/-- **Digits are read if their value is below the bound.** That it is so all along is the same,
because it never falls. -/
theorem valueFrom?_eq_some_iff {base bound sofar n : Nat} (hbase : 0 < base)
    (hsofar : sofar < bound) (cs : List Char) :
    valueFrom? base bound sofar cs = some n ↔
      AreDigits base cs ∧ worthFrom base sofar cs = n ∧ n < bound := by
  induction cs generalizing sofar with
  | nil =>
    rw [valueFrom?, worthFrom, Option.some_inj]
    constructor
    · rintro rfl
      exact ⟨List.forall_mem_nil _, rfl, hsofar⟩
    · exact fun h => h.2.1
  | cons c cs ih =>
    rw [valueFrom?, AreDigits, List.forall_mem_cons, worthFrom]
    cases hdigit : digit? base c with
    | none => simp
    | some d =>
      have hgrows := le_worthFrom hbase (sofar * base + d) cs
      rw [Option.bind_eq_bind, Option.bind_some, Option.isSome_some, Option.getD_some]
      dsimp only
      by_cases hlonger : sofar * base + d < bound
      · rw [if_pos hlonger, ih hlonger, AreDigits, eq_self, true_and]
      · rw [if_neg hlonger]
        constructor
        · intro h
          cases h
        · rintro ⟨-, hworth, hlt⟩
          omega

/-- A plus sign is no digit. -/
theorem not_areDigits_plus (base : Nat) (cs : List Char) : ¬ AreDigits base ('+' :: cs) := by
  intro h
  have hplus := h '+' List.mem_cons_self
  simp [digit?] at hplus

/-- **What is read as a numeral**: one or more digits, which may have a plus sign in front, of a
value below the bound. -/
theorem read?_eq_some_iff {base bound n : Nat} (hbase : 0 < base) (hbound : 0 < bound)
    (cs : List Char) :
    read? base bound cs = some n ↔
      ∃ digits, (cs = digits ∨ cs = '+' :: digits) ∧ digits ≠ [] ∧ AreDigits base digits ∧
        worthFrom base 0 digits = n ∧ n < bound := by
  have hvalue : ∀ ds : List Char, value? base bound ds = some n ↔
      ds ≠ [] ∧ AreDigits base ds ∧ worthFrom base 0 ds = n ∧ n < bound := by
    intro ds
    rw [value?, ← valueFrom?_eq_some_iff hbase hbound]
    cases ds <;> simp
  rw [read?.eq_def]
  split
  · next ds =>
    rw [hvalue]
    constructor
    · exact fun h => ⟨ds, .inr rfl, h⟩
    · rintro ⟨digits, rfl | heq, h⟩
      · exact absurd h.2.1 (not_areDigits_plus base ds)
      · obtain rfl := (List.cons.inj heq).2
        exact h
  · next hplus =>
    rw [hvalue]
    constructor
    · exact fun h => ⟨cs, .inl rfl, h⟩
    · rintro ⟨digits, rfl | rfl, h⟩
      · exact h
      · exact absurd rfl (hplus digits)

/-- A decimal digit is one of ten characters in a row. -/
theorem toNat_of_isDigit {c : Char} (h : c.isDigit) : 48 ≤ c.toNat ∧ c.toNat ≤ 57 := by
  rw [Char.isDigit, Bool.and_eq_true, decide_eq_true_iff, decide_eq_true_iff] at h
  exact h

/-- A decimal digit is one of the digits 0 to 9, with its usual value. -/
theorem digit?_ten (c : Char) :
    digit? 10 c = if c.isDigit then some (c.toNat - '0'.toNat) else none := by
  have hdigit : c.isDigit = true ↔ '0' ≤ c ∧ c ≤ '9' := by
    rw [Char.isDigit, Bool.and_eq_true, decide_eq_true_iff, decide_eq_true_iff]
    rfl
  by_cases h : '0' ≤ c ∧ c ≤ '9'
  · have hbounds : 48 ≤ c.toNat ∧ c.toNat ≤ 57 := h
    have hlt : c.toNat - 48 < 10 := by omega
    rw [if_pos (hdigit.2 h), digit?, if_pos h]
    simp [hlt]
  · rw [if_neg (mt hdigit.1 h), digit?, if_neg h]
    split
    · simp
    · split <;> simp

/-- Decimal digits have the value that they are read as. -/
theorem worthFrom_ten {cs : List Char} (h : AreDigits 10 cs) (sofar : Nat) :
    worthFrom 10 sofar cs = Nat.ofDigitChars 10 cs sofar := by
  induction cs generalizing sofar with
  | nil => rfl
  | cons c cs ih =>
    obtain ⟨hc, hcs⟩ := List.forall_mem_cons.1 h
    rw [worthFrom, Nat.ofDigitChars_cons, ih hcs]
    rw [digit?_ten] at hc ⊢
    split at hc
    · next hdigit => rw [if_pos hdigit, Option.getD_some, Nat.mul_comm]
    · cases hc

/-- Decimal digits are the digits 0 to 9. -/
theorem areDigits_ten_iff (cs : List Char) : AreDigits 10 cs ↔ ∀ c ∈ cs, c.isDigit := by
  simp only [AreDigits, digit?_ten]
  refine forall₂_congr fun c _ => ?_
  split <;> simp [*]

/-! ## Padding -/

/-- There are only digits in a numeral. -/
theorem isDigit_of_mem_padded {width n : Nat} {c : Char} (h : c ∈ (padded width n).toList) :
    c.isDigit := by
  rw [padded, String.toList_ofList, List.mem_append] at h
  cases h with
  | inl hzero => rw [List.eq_of_mem_replicate hzero]; decide
  | inr hdigit => exact Json.isDigit_of_mem_toDigits c hdigit

/-- There is no colon in a numeral. -/
theorem not_mem_padded (width n : Nat) : ':' ∉ (padded width n).toList :=
  fun h => absurd (isDigit_of_mem_padded h) (by decide)

/-- Zeros in front of digits do not change their value. -/
theorem ofDigitChars_replicate_append (width : Nat) (ds : List Char) :
    Nat.ofDigitChars 10 (List.replicate width '0' ++ ds) 0 = Nat.ofDigitChars 10 ds 0 := by
  induction width with
  | zero => rfl
  | succ width ih => rw [List.replicate_succ, List.cons_append, Nat.ofDigitChars_cons]; exact ih

/-- The value of padded digits is the number. -/
theorem ofDigitChars_padded (width n : Nat) :
    Nat.ofDigitChars 10 (padded width n).toList 0 = n := by
  rw [padded, String.toList_ofList, ofDigitChars_replicate_append, Nat.ofDigitChars_ten_toDigits]

/-- The number can be told from its padded digits, of which there may be more than the width. -/
theorem padded_injective (width : Nat) : Function.Injective (padded width) := by
  intro n n' h
  rw [← ofDigitChars_padded width n, h, ofDigitChars_padded width n']

/-- There are as many digits as the width, or as the number has if these are more. -/
theorem length_padded (width n : Nat) :
    (padded width n).toList.length = max width (Nat.toDigits 10 n).length := by
  rw [padded, String.toList_ofList, List.length_append, List.length_replicate]
  omega

/-- There are as many digits as the width if the number has no more. -/
theorem length_padded_of_le {width n : Nat} (h : (Nat.toDigits 10 n).length ≤ width) :
    (padded width n).toList.length = width := by
  rw [length_padded, Nat.max_eq_left h]

/-- A number below a power of ten has as many digits as that has zeros, at most. -/
theorem length_toDigits_le {n width : Nat} (hwidth : 0 < width) (h : n < Nat.pow 10 width) :
    (Nat.toDigits 10 n).length ≤ width :=
  (Nat.length_toDigits_le_iff (by decide) hwidth).2 h

/-! ## Order -/

/-- Texts that start with parts of one length compare by these parts, and by what follows if they
are the same. -/
theorem append_lt_append_iff {l l' : List Char} (h : l.length = l'.length)
    (rest rest' : List Char) :
    l ++ rest < l' ++ rest' ↔ l < l' ∨ l = l' ∧ rest < rest' := by
  induction l generalizing l' with
  | nil =>
    obtain rfl := List.eq_nil_of_length_eq_zero h.symm
    simp
  | cons c l ih =>
    cases l' with
    | nil => cases h
    | cons c' l' =>
      rw [List.cons_append, List.cons_append, List.cons_lt_cons_iff, List.cons_lt_cons_iff,
        ih (Nat.succ.inj h), List.cons.injEq, and_or_left, and_assoc, or_assoc]

/-- Numbers with one more digit each compare by what they were before, and by the digit if that is
the same. So digits, as many behind one number as behind the other, compare as texts if the numbers
are the same.

**Proof sketch.** Induction on the digits, with the numbers in front general. A digit is less than
ten, so it decides only between numbers that were the same before. -/
theorem ofDigitChars_lt_ofDigitChars_iff {cs cs' : List Char} (hlength : cs.length = cs'.length)
    (h : ∀ c ∈ cs, c.isDigit) (h' : ∀ c ∈ cs', c.isDigit) (n n' : Nat) :
    Nat.ofDigitChars 10 cs n < Nat.ofDigitChars 10 cs' n' ↔ n < n' ∨ n = n' ∧ cs < cs' := by
  induction cs generalizing cs' n n' with
  | nil =>
    obtain rfl := List.eq_nil_of_length_eq_zero hlength.symm
    simp
  | cons c cs ih =>
    cases cs' with
    | nil => cases hlength
    | cons c' cs' =>
      obtain ⟨hc, hcs⟩ := List.forall_mem_cons.1 h
      obtain ⟨hc', hcs'⟩ := List.forall_mem_cons.1 h'
      have hzero : '0'.toNat = 48 := rfl
      have hdigit := toNat_of_isDigit hc
      have hdigit' := toNat_of_isDigit hc'
      have hlt : c < c' ↔ c.toNat < c'.toNat := Iff.rfl
      rw [Nat.ofDigitChars_cons, Nat.ofDigitChars_cons, ih (Nat.succ.inj hlength) hcs hcs',
        List.cons_lt_cons_iff, hlt, ← Char.toNat_inj]
      by_cases hrest : cs < cs'
      · simp only [hrest, and_true]
        omega
      · simp only [hrest, and_false, or_false]
        omega

/-- **Numerals of one width stand in the order of their numbers.** Where these are the same, what
follows behind a separator decides. -/
theorem padded_append_cons_lt_iff {width n n' : Nat} (h : (Nat.toDigits 10 n).length ≤ width)
    (h' : (Nat.toDigits 10 n').length ≤ width) (separator : Char) (rest rest' : List Char) :
    (padded width n).toList ++ separator :: rest < (padded width n').toList ++ separator :: rest' ↔
      n < n' ∨ n = n' ∧ rest < rest' := by
  have hlength : (padded width n).toList.length = (padded width n').toList.length :=
    (length_padded_of_le h).trans (length_padded_of_le h').symm
  have heq : (padded width n).toList = (padded width n').toList ↔ n = n' := by
    rw [String.toList_inj, (padded_injective width).eq_iff]
  have hlt : (padded width n).toList < (padded width n').toList ↔ n < n' := by
    have hvalues := ofDigitChars_lt_ofDigitChars_iff hlength (fun _ => isDigit_of_mem_padded)
      (fun _ => isDigit_of_mem_padded) 0 0
    rw [ofDigitChars_padded, ofDigitChars_padded] at hvalues
    simpa using hvalues.symm
  have hseparator : separator :: rest < separator :: rest' ↔ rest < rest' := by
    simp
  rw [append_lt_append_iff hlength, heq, hlt, hseparator]

end CopyTrial.Numeral
