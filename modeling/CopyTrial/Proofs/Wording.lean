import CopyTrial.Expectation
import CopyTrial.Proofs.Numeral

/-!
# Divergences are told unambiguously

A divergence is told in a line with its two bytes as they are, or in words with the bytes escaped.
Either way it can be told from what is written, and where it ends too: the index goes up to the
first blank, a raw byte is just one, whatever it looks like, and a byte in words is read back from
its first characters. So a sequence of lines has only one reading, and two verdicts in words are the
same only if the verdicts are.

## Main definitions

* `readByteWording` — the byte that stands in words at the start of characters, and what follows.

## Main results

* `Divergence.diagnosticLine_append_inj` — a line, and what follows it, can be told.
* `Divergence.flatMap_diagnosticLine_injective` — so can a sequence of lines.
* `Expectation.wording_append_inj` — a verdict in words, and what follows it, can be told.
-/

set_option autoImplicit false

namespace CopyTrial

/-! ## Numbers -/

/-- What stands before the first separator can be told, and what stands after it. -/
theorem append_cons_inj {α : Type} {separator : α} {l l' rest rest' : List α}
    (hl : separator ∉ l) (hl' : separator ∉ l')
    (h : l ++ separator :: rest = l' ++ separator :: rest') : l = l' ∧ rest = rest' := by
  induction l generalizing l' with
  | nil =>
    cases l' with
    | nil => exact ⟨rfl, (List.cons.inj h).2⟩
    | cons c' l' => exact absurd (List.mem_cons.2 (.inl (List.cons.inj h).1)) hl'
  | cons c l ih =>
    cases l' with
    | nil => exact absurd (List.mem_cons.2 (.inl (List.cons.inj h).1.symm)) hl
    | cons c' l' =>
      rw [List.mem_cons, not_or] at hl hl'
      obtain ⟨rfl, htail⟩ := List.cons.inj h
      obtain ⟨rfl, hrest⟩ := ih hl.2 hl'.2 htail
      exact ⟨rfl, hrest⟩

/-- A number is told by its digits. -/
theorem toDigits_injective : Function.Injective (Nat.toDigits 10) := by
  intro n n' h
  rw [← Nat.ofDigitChars_ten_toDigits (n := n), h, Nat.ofDigitChars_ten_toDigits]

/-- A number before a blank can be told, and what stands after the blank. -/
theorem toDigits_append_cons_inj {n n' : Nat} {rest rest' : List Char}
    (h : Nat.toDigits 10 n ++ ' ' :: rest = Nat.toDigits 10 n' ++ ' ' :: rest') :
    n = n' ∧ rest = rest' := by
  have hblank : ∀ n, ' ' ∉ Nat.toDigits 10 n := Json.not_mem_toDigits (by decide)
  obtain ⟨hdigits, hrest⟩ := append_cons_inj (hblank n) (hblank n') h
  exact ⟨toDigits_injective hdigits, hrest⟩

namespace Bytes

/-- The byte of a blank does not stand in a number. -/
theorem not_mem_ofText_repr (n : Nat) : 0x20 ∉ ofText (Nat.repr n) := by
  rw [ofText_eq_flatMap, List.mem_flatMap]
  rintro ⟨c, hc, hmem⟩
  have hdigit : c.isDigit := Json.isDigit_of_mem_toDigits c (by simpa [Nat.repr] using hc)
  have hcode : 48 ≤ c.val.toNat ∧ c.val.toNat ≤ 57 := Numeral.toNat_of_isDigit hdigit
  have hsize : c.utf8Size = 1 := by
    rw [Char.utf8Size_eq_one_iff, UInt32.le_iff_toNat_le]
    exact Nat.le_trans hcode.2 (by decide)
  rw [String.utf8EncodeChar_eq_singleton hsize, List.mem_singleton] at hmem
  have hbyte : 32 = c.val.toUInt8.toNat := congrArg UInt8.toNat hmem
  rw [UInt32.toNat_toUInt8] at hbyte
  omega

/-- A number before a blank can be told by its bytes, and what stands after the blank. -/
theorem ofText_repr_append_cons_inj {n n' : Nat} {rest rest' : Bytes}
    (h : ofText (Nat.repr n) ++ 0x20 :: rest = ofText (Nat.repr n') ++ 0x20 :: rest') :
    n = n' ∧ rest = rest' := by
  obtain ⟨hbytes, hrest⟩ := append_cons_inj (not_mem_ofText_repr n) (not_mem_ofText_repr n') h
  exact ⟨toDigits_injective (String.ofList_injective (ofText_injective hbytes)), hrest⟩

end Bytes

/-! ## Lines with raw bytes -/

namespace Divergence

/-- The parts of a diagnostic line, and what follows it. -/
theorem diagnosticLine_append (d : Divergence) (rest : Bytes) :
    d.diagnosticLine ++ rest =
      Bytes.ofText "i = " ++ (Bytes.ofText (Nat.repr d.index) ++ 0x20 ::
        (Bytes.ofText "got " ++ d.actual :: (Bytes.ofText " want " ++
          d.expected :: 0x0a :: rest))) := by
  have hgot : Bytes.ofText " got " = 0x20 :: Bytes.ofText "got " := rfl
  simp [diagnosticLine, hgot]

/-- **A diagnostic line can be told, and what follows it**, even if the raw bytes look like digits,
blanks or the end of the line.

**Proof sketch.** The index goes up to the first blank, and from there on each part has one
length. -/
theorem diagnosticLine_append_inj {d d' : Divergence} {rest rest' : Bytes}
    (h : d.diagnosticLine ++ rest = d'.diagnosticLine ++ rest') : d = d' ∧ rest = rest' := by
  rw [diagnosticLine_append, diagnosticLine_append] at h
  obtain ⟨hindex, h⟩ := Bytes.ofText_repr_append_cons_inj (List.append_cancel_left h)
  obtain ⟨hactual, h⟩ := List.cons.inj (List.append_cancel_left h)
  obtain ⟨hexpected, h⟩ := List.cons.inj (List.append_cancel_left h)
  obtain ⟨-, hrest⟩ := List.cons.inj h
  cases d
  cases d'
  subst hindex hactual hexpected
  exact ⟨rfl, hrest⟩

/-- There is something on every line. -/
theorem diagnosticLine_ne_nil (d : Divergence) : d.diagnosticLine ≠ [] := by
  simp [diagnosticLine]

/-- **A sequence of diagnostic lines has only one reading.** -/
theorem flatMap_diagnosticLine_injective :
    Function.Injective fun ds : List Divergence => ds.flatMap diagnosticLine := by
  intro ds ds' h
  induction ds generalizing ds' with
  | nil =>
    cases ds' with
    | nil => rfl
    | cons d' ds' => exact absurd (List.append_eq_nil_iff.1 h.symm).1 d'.diagnosticLine_ne_nil
  | cons d ds ih =>
    cases ds' with
    | nil => exact absurd (List.append_eq_nil_iff.1 h).1 d.diagnosticLine_ne_nil
    | cons d' ds' =>
      obtain ⟨rfl, hrest⟩ := diagnosticLine_append_inj h
      rw [ih hrest]

end Divergence

/-! ## Bytes in words -/

/-- The value of a hexadecimal digit in lower case. -/
def hexWorth (c : Char) : Nat := (Numeral.digit? 16 c).getD 0

/-- The byte that stands in words at the start of characters, and what follows it. -/
def readByteWording : List Char → UInt8 × List Char
  | '\\' :: 'x' :: high :: low :: rest => (UInt8.ofNat (16 * hexWorth high + hexWorth low), rest)
  | '\\' :: 't' :: rest => (0x09, rest)
  | '\\' :: 'r' :: rest => (0x0d, rest)
  | '\\' :: 'n' :: rest => (0x0a, rest)
  | '\\' :: c :: rest => (UInt8.ofNat c.toNat, rest)
  | c :: rest => (UInt8.ofNat c.toNat, rest)
  | [] => (0, [])

/-- A hexadecimal digit is worth the number that it was made from. -/
theorem hexWorth_digitChar : ∀ n < 16, hexWorth n.digitChar = n := by decide

/-- A character that stands for itself is read as one byte. -/
theorem readByteWording_cons {c : Char} (h : c ≠ '\\') (rest : List Char) :
    readByteWording (c :: rest) = (UInt8.ofNat c.toNat, rest) := by
  simp [readByteWording, h]

/-- The escape of a byte is read back. -/
theorem readByteWording_byteEscape (b : UInt8) (rest : List Char) :
    readByteWording (byteEscape b ++ rest) = (b, rest) := by
  have hb : b.toNat < 256 := b.toNat_lt
  have hhigh := hexWorth_digitChar (b.toNat / 16) (by omega)
  have hlow := hexWorth_digitChar (b.toNat % 16) (by omega)
  have hworth : 16 * (b.toNat / 16) + b.toNat % 16 = b.toNat := Nat.div_add_mod ..
  show (UInt8.ofNat (16 * hexWorth (b.toNat / 16).digitChar + hexWorth (b.toNat % 16).digitChar),
    rest) = (b, rest)
  rw [hhigh, hlow, hworth, UInt8.ofNat_toNat]

/-- **A byte in words is read back**, whatever follows it.

**Proof sketch.** The cases are those of the wording. A visible character that stands for itself is
no backslash, with which everything else starts. -/
theorem readByteWording_append (b : UInt8) (rest : List Char) :
    readByteWording (byteWording b ++ rest) = (b, rest) := by
  have hself : ∀ n < 256, (Char.ofNat n).toNat = n := by decide +kernel
  unfold byteWording
  -- the bytes with an escape of one letter
  iterate 6
    split
    · next h => rw [h]; rfl
  next hbackslash =>
  split
  · have hcode := hself b.toNat b.toNat_lt
    have hne : Char.ofNat b.toNat ≠ '\\' := by
      intro heq
      rw [heq] at hcode
      exact hbackslash (UInt8.toNat_inj.1 hcode.symm)
    rw [List.singleton_append, readByteWording_cons hne, hcode, UInt8.ofNat_toNat]
  · exact readByteWording_byteEscape b rest

/-- A byte in words can be told, and what follows it. -/
theorem byteWording_append_inj {b b' : UInt8} {rest rest' : List Char}
    (h : byteWording b ++ rest = byteWording b' ++ rest') : b = b' ∧ rest = rest' := by
  have hread := congrArg readByteWording h
  rw [readByteWording_append, readByteWording_append] at hread
  exact Prod.mk.inj hread

/-! ## Verdicts in words -/

/-- The parts of a divergence in words, and what follows it. -/
theorem Divergence.wording_append (d : Divergence) (rest : List Char) :
    d.wording.toList ++ rest =
      "i = ".toList ++ (Nat.toDigits 10 d.index ++ ' ' :: ("got '".toList ++
        (byteWording d.actual ++ ("' want '".toList ++
          (byteWording d.expected ++ '\x27' :: rest))))) := by
  simp [wording, Nat.repr]

/-- A divergence in words can be told, and what follows it. -/
theorem Divergence.wording_append_inj {d d' : Divergence} {rest rest' : List Char}
    (h : d.wording.toList ++ rest = d'.wording.toList ++ rest') : d = d' ∧ rest = rest' := by
  rw [wording_append, wording_append] at h
  obtain ⟨hindex, h⟩ := toDigits_append_cons_inj (List.append_cancel_left h)
  obtain ⟨hactual, h⟩ := byteWording_append_inj (List.append_cancel_left h)
  obtain ⟨hexpected, h⟩ := byteWording_append_inj (List.append_cancel_left h)
  obtain ⟨-, hrest⟩ := List.cons.inj h
  cases d
  cases d'
  subst hindex hactual hexpected
  exact ⟨rfl, hrest⟩

/-- **A verdict in words can be told, and what follows it.** -/
theorem Expectation.wording_append_inj {x x' : Expectation} {rest rest' : List Char}
    (h : x.wording.toList ++ rest = x'.wording.toList ++ rest') : x = x' ∧ rest = rest' := by
  have hfail : ∀ (r : DivergenceRecord) (rest : List Char),
      (Expectation.fail r).wording.toList ++ rest =
        "fail ".toList ++ (r.divergence.wording.toList ++ rest) := by
    intro r rest
    rw [wording, String.toList_append, List.append_assoc]
  cases x with
  | pass =>
    cases x' with
    | pass => exact ⟨rfl, List.append_cancel_left h⟩
    | fail r' =>
      rw [hfail] at h
      cases (List.cons.inj h).1
  | fail r =>
    cases x' with
    | pass =>
      rw [hfail] at h
      cases (List.cons.inj h).1
    | fail r' =>
      rw [hfail, hfail] at h
      obtain ⟨hd, hrest⟩ := Divergence.wording_append_inj (List.append_cancel_left h)
      obtain ⟨hindex, hactual, hexpected⟩ := Divergence.mk.inj hd
      refine ⟨?_, hrest⟩
      cases r
      cases r'
      rw [UInt64.toNat_inj] at hindex
      subst hindex hactual hexpected
      rfl

end CopyTrial
