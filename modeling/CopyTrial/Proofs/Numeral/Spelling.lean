import Mathlib.Data.List.Forall2
import Mathlib.Data.Nat.Digits.Defs
import CopyTrial.Proofs.Numeral

/-!
# The numbers that numerals denote

Digits spell a number in the usual way, with powers of their base. A numeral that is read digit by
digit has this number, however many digits there are; it is the number that must be below the bound,
and not only what has been read of it so far.

## Main definitions

* `Numeral.Spells`, `Numeral.Denotes` — digits spell a number, and so does a numeral, whose digits
  may have a plus sign in front.

## Main results

* `Numeral.digit?_eq_some_iff` — which characters are digits of which value.
* `Numeral.spells_iff` — what digits spell is what they are worth when they are read one by one.
* `Numeral.read?_eq_some_iff_denotes` — a numeral is read if its number is below the bound.
-/

set_option autoImplicit false

namespace CopyTrial.Numeral

/-- A character is a digit of a base, of a given value; letters may have either case. -/
def IsDigitOf (base : Nat) (c : Char) (d : Nat) : Prop :=
  d < base ∧ (c = d.digitChar ∨ c = d.digitChar.toUpper)

/-- Digits of a base, the most significant one first, spell a number. -/
def Spells (base : Nat) (digits : List Char) (n : Nat) : Prop :=
  ∃ ds, List.Forall₂ (IsDigitOf base) digits ds ∧ Nat.ofDigits base ds.reverse = n

/-- A numeral denotes a number: it is made of one or more digits that spell the number, and there
may be a plus sign in front of them. -/
def Denotes (base : Nat) (cs : List Char) (n : Nat) : Prop :=
  ∃ sign digits, cs = sign ++ digits ∧ (sign = [] ∨ sign = ['+']) ∧ digits ≠ [] ∧
    Spells base digits n

variable {base : Nat}

/-- The characters of the digits ten and above, small and capital. -/
theorem toNat_digitChar_of_letter : ∀ d < 16, 10 ≤ d →
    d.digitChar.toNat = d + 87 ∧ d.digitChar.toUpper.toNat = d + 55 := by decide

/-- Each digit is read as its value, whatever the case of letters. -/
theorem digit?_sixteen : ∀ d < 16,
    digit? 16 d.digitChar = some d ∧ digit? 16 d.digitChar.toUpper = some d := by decide

/-- A digit of a base is a hexadecimal digit of a value below the base. -/
theorem digit?_eq_some_iff_sixteen (hbase : base ≤ 16) (c : Char) (d : Nat) :
    digit? base c = some d ↔ digit? 16 c = some d ∧ d < base := by
  simp only [digit?, Option.filter_eq_some_iff, decide_eq_true_eq]
  constructor
  · rintro ⟨hvalue, hlt⟩
    exact ⟨⟨hvalue, by omega⟩, hlt⟩
  · rintro ⟨⟨hvalue, -⟩, hlt⟩
    exact ⟨hvalue, hlt⟩

/-- **What is read as a digit** are the digits of the base, with their values. -/
theorem digit?_eq_some_iff (hbase : base ≤ 16) (c : Char) (d : Nat) :
    digit? base c = some d ↔ IsDigitOf base c d := by
  rw [digit?_eq_some_iff_sixteen hbase, IsDigitOf]
  constructor
  · rintro ⟨hread, hlt⟩
    refine ⟨hlt, ?_⟩
    have hletter := toNat_digitChar_of_letter d (by omega)
    simp only [digit?, Option.filter_eq_some_iff, decide_eq_true_eq] at hread
    rw [← Char.toNat_inj, ← Char.toNat_inj]
    -- the value tells the distance of the character from the first one of its row
    obtain ⟨hvalue, -⟩ := hread
    split at hvalue
    · next hrow =>
      have hrow : 48 ≤ c.toNat ∧ c.toNat ≤ 57 := hrow
      have hd : c.toNat - 48 = d := Option.some.inj hvalue
      left
      rw [Nat.toNat_digitChar_of_lt_ten (by omega)]
      omega
    · split at hvalue
      · next hrow =>
        have hrow : 97 ≤ c.toNat ∧ c.toNat ≤ 102 := hrow
        have hd : c.toNat - 97 + 10 = d := Option.some.inj hvalue
        omega
      · split at hvalue
        · next hrow =>
          have hrow : 65 ≤ c.toNat ∧ c.toNat ≤ 70 := hrow
          have hd : c.toNat - 65 + 10 = d := Option.some.inj hvalue
          omega
        · cases hvalue
  · rintro ⟨hlt, rfl | rfl⟩
    · exact ⟨(digit?_sixteen d (by omega)).1, hlt⟩
    · exact ⟨(digit?_sixteen d (by omega)).2, hlt⟩

/-- Digits that follow others raise these by their number, and add their own value. -/
theorem worthFrom_eq (hbase : base ≤ 16) {cs : List Char} {ds : List Nat}
    (h : List.Forall₂ (IsDigitOf base) cs ds) (sofar : Nat) :
    worthFrom base sofar cs = sofar * base ^ ds.length + Nat.ofDigits base ds.reverse := by
  induction h generalizing sofar with
  | nil => simp [worthFrom]
  | @cons c d cs ds hdigit _ ih =>
    rw [worthFrom, (digit?_eq_some_iff hbase c d).2 hdigit, Option.getD_some, ih,
      Nat.ofDigits_reverse_cons, List.length_cons]
    ring

/-- **What digits spell** is what they are worth when they are read one by one. -/
theorem spells_iff (hbase : base ≤ 16) (cs : List Char) (n : Nat) :
    Spells base cs n ↔ AreDigits base cs ∧ worthFrom base 0 cs = n := by
  constructor
  · rintro ⟨ds, hds, rfl⟩
    refine ⟨?_, by rw [worthFrom_eq hbase hds, Nat.zero_mul, Nat.zero_add]⟩
    induction hds with
    | nil => exact List.forall_mem_nil _
    | @cons c d cs ds hd _ ih =>
      refine List.forall_mem_cons.2 ⟨?_, ih⟩
      rw [(digit?_eq_some_iff hbase c d).2 hd, Option.isSome_some]
  · rintro ⟨hcs, rfl⟩
    have hds : List.Forall₂ (IsDigitOf base) cs (cs.map fun c => (digit? base c).getD 0) := by
      refine List.forall₂_map_right_iff.2 (List.forall₂_same.2 fun c hc => ?_)
      obtain ⟨d, hd⟩ := Option.isSome_iff_exists.1 (hcs c hc)
      rw [hd, Option.getD_some, ← digit?_eq_some_iff hbase, hd]
    exact ⟨_, hds, by rw [worthFrom_eq hbase hds, Nat.zero_mul, Nat.zero_add]⟩

/-- **A numeral is read if its number is below the bound.** -/
theorem read?_eq_some_iff_denotes {bound n : Nat} (hpos : 0 < base) (hbase : base ≤ 16)
    (hbound : 0 < bound) (cs : List Char) :
    read? base bound cs = some n ↔ Denotes base cs n ∧ n < bound := by
  rw [read?_eq_some_iff hpos hbound, Denotes]
  constructor
  · rintro ⟨digits, rfl | rfl, hne, hdigits, hworth, hlt⟩
    · exact ⟨⟨[], _, rfl, .inl rfl, hne, (spells_iff hbase _ _).2 ⟨hdigits, hworth⟩⟩, hlt⟩
    · exact ⟨⟨['+'], _, rfl, .inr rfl, hne, (spells_iff hbase _ _).2 ⟨hdigits, hworth⟩⟩, hlt⟩
  · rintro ⟨⟨sign, digits, rfl, hsign, hne, hspells⟩, hlt⟩
    obtain ⟨hdigits, hworth⟩ := (spells_iff hbase _ _).1 hspells
    refine ⟨digits, ?_, hne, hdigits, hworth, hlt⟩
    rcases hsign with rfl | rfl
    · exact .inl rfl
    · exact .inr rfl

/-- Zeros in front of digits do not change what they spell. -/
theorem spells_replicate_append (hpos : 0 < base) (hbase : base ≤ 16) (zeros : Nat)
    (digits : List Char) (n : Nat) :
    Spells base (List.replicate zeros '0' ++ digits) n ↔ Spells base digits n := by
  have hzero : digit? base '0' = some 0 := (digit?_eq_some_iff hbase _ _).2 ⟨hpos, .inl rfl⟩
  rw [spells_iff hbase, spells_iff hbase]
  induction zeros with
  | zero => rfl
  | succ zeros ih =>
    rw [List.replicate_succ, List.cons_append, AreDigits, List.forall_mem_cons, worthFrom, hzero]
    simpa [AreDigits] using ih

end CopyTrial.Numeral
