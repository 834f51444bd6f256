import CopyTrial.Json.Value

/-!
# What readers do on written text

A written document is read piece by piece. For each reader it is said once which characters it
takes, which it leaves, and what it gives; the places that errors would have do not matter.

## Main definitions

* `Json.Reads`, `Json.Rejects` — on some characters a reader gives a value and leaves the rest, or
  fails.
* `Json.Follows` — a reader gives the value of a result, or fails if there is none.
* `Json.EndsNumber` — what stands after a number does not continue it.

## Main results

* `Json.Reads.bind`, `Json.Follows.bind` — what two readers do one after the other.
* `Json.reads_number` — an integer of a word is read back.
* `Json.reads_textTail` — a quoted text is read back.
-/

set_option autoImplicit false

namespace CopyTrial.Json

/-- On the characters `before`, whatever place they start at, a reader gives `a` and leaves the
characters `after`. -/
def Reads {α : Type} (reader : Reader α) (before after : List Char) (a : α) : Prop :=
  ∀ p, ∃ q, reader ⟨before, p⟩ = .ok (a, ⟨after, q⟩)

section

variable {α β : Type}

/-- A value is given without reading. -/
theorem Reads.pure (a : α) (cs : List Char) : Reads (pure a) cs cs a :=
  fun p => ⟨p, rfl⟩

/-- The second of two readers starts where the first one stops. -/
theorem Reads.bind {reader : Reader α} {next : α → Reader β} {before between after : List Char}
    {a : α} {b : β} (h : Reads reader before between a) (h' : Reads (next a) between after b) :
    Reads (reader >>= next) before after b := by
  intro p
  obtain ⟨q, hq⟩ := h p
  obtain ⟨r, hr⟩ := h' q
  refine ⟨r, ?_⟩
  simp only [Bind.bind, StateT.bind, Except.bind, hq]
  exact hr

/-- A function may be applied to what a reader gives. -/
theorem Reads.map {reader : Reader α} {before after : List Char} {a : α}
    (h : Reads reader before after a) (f : α → β) : Reads (f <$> reader) before after (f a) := by
  intro p
  obtain ⟨q, hq⟩ := h p
  refine ⟨q, ?_⟩
  simp only [Functor.map, StateT.map, Bind.bind, Except.bind, hq]
  rfl

end

/-- On the characters `before`, whatever place they start at, a reader fails. -/
def Rejects {α : Type} (reader : Reader α) (before : List Char) : Prop :=
  ∀ p, ∃ failure, reader ⟨before, p⟩ = .error failure

/-- On the characters `before` a reader does what a result says: it gives the value and leaves the
characters `after`, or it fails if there is no value. -/
def Follows {ε α : Type} (reader : Reader α) (before after : List Char) : Except ε α → Prop
  | .ok a => Reads reader before after a
  | .error _ => Rejects reader before

section

variable {ε α β : Type} {reader : Reader α} {next : α → Reader β} {before between after : List Char}

/-- Where the first of two readers fails, there is no second one. -/
theorem Rejects.bind (h : Rejects reader before) : Rejects (reader >>= next) before := by
  intro p
  obtain ⟨failure, hfailure⟩ := h p
  exact ⟨failure, by simp only [Bind.bind, StateT.bind, Except.bind, hfailure]⟩

/-- The second of two readers may fail where the first one stops. -/
theorem Reads.bind_rejects {a : α} (h : Reads reader before between a)
    (h' : Rejects (next a) between) : Rejects (reader >>= next) before := by
  intro p
  obtain ⟨q, hq⟩ := h p
  obtain ⟨failure, hfailure⟩ := h' q
  refine ⟨failure, ?_⟩
  simp only [Bind.bind, StateT.bind, Except.bind, hq]
  exact hfailure

/-- The second of two readers does what a result says where the first one stops. -/
theorem Reads.bind_follows {a : α} {result : Except ε β} (h : Reads reader before between a)
    (h' : Follows (next a) between after result) :
    Follows (reader >>= next) before after result := by
  cases result with
  | ok b => exact h.bind h'
  | error e => exact h.bind_rejects h'

/-- **Two readers do what two results say**, one after the other. -/
theorem Follows.bind {result : Except ε α} {get : α → Except ε β}
    (h : Follows reader before between result)
    (h' : ∀ a, result = .ok a → Follows (next a) between after (get a)) :
    Follows (reader >>= next) before after (result >>= get) := by
  cases result with
  | ok a => exact Reads.bind_follows h (h' a rfl)
  | error e => exact Rejects.bind h

/-- Where the second of two readers fails, whatever the first one gives, both do. -/
theorem Follows.bind_rejects {result : Except ε α} (h : Follows reader before between result)
    (h' : ∀ a, result = .ok a → Rejects (next a) between) : Rejects (reader >>= next) before := by
  cases result with
  | ok a => exact Reads.bind_rejects h (h' a rfl)
  | error e => exact Rejects.bind h

/-- Readers that do the same on some characters come to the same result there. -/
theorem Follows.congr {reader' : Reader α} {result : Except ε α}
    (h : Follows reader before after result)
    (heq : ∀ p, reader' ⟨before, p⟩ = reader ⟨before, p⟩) :
    Follows reader' before after result := by
  cases result with
  | ok a => exact fun p => (heq p).symm ▸ h p
  | error e => exact fun p => (heq p).symm ▸ h p

/-- Where a reader fails, there is nothing to apply a function to. -/
theorem Rejects.map (h : Rejects reader before) (f : α → β) : Rejects (f <$> reader) before := by
  intro p
  obtain ⟨failure, hfailure⟩ := h p
  exact ⟨failure, by simp only [Functor.map, StateT.map, Bind.bind, Except.bind, hfailure]⟩

/-- A function may be applied to what a reader gives and to the value of a result. -/
theorem Follows.map {result : Except ε α} (h : Follows reader before after result) (f : α → β) :
    Follows (f <$> reader) before after (f <$> result) := by
  cases result with
  | ok a => exact Reads.map h f
  | error e => exact Rejects.map h f

end

/-! ### Failures -/

section

variable {α : Type}

/-- Failing at the place reached is failing. -/
theorem rejects_failHere (cause : Cause) (cs : List Char) :
    Rejects (failHere cause : Reader α) cs := fun _ => ⟨_, rfl⟩

/-- Failing at the next byte is failing. -/
theorem rejects_failAhead (cause : Cause) (cs : List Char) :
    Rejects (failAhead cause : Reader α) cs := fun _ => ⟨_, rfl⟩

/-- Failing without a place is failing. -/
theorem rejects_failFloating (cause : Cause) (cs : List Char) :
    Rejects (failFloating cause : Reader α) cs := fun _ => ⟨_, rfl⟩

end

/-! ### Single characters -/

/-- Looking at the next character leaves it where it is. -/
theorem reads_peek (cs : List Char) : Reads peek cs cs cs.head? :=
  fun p => ⟨p, rfl⟩

/-- One character is passed. -/
theorem reads_advance (c : Char) (rest : List Char) : Reads advance (c :: rest) rest () :=
  fun p => ⟨p.after c, rfl⟩

/-- Given letters are passed. -/
theorem reads_word (letters rest : List Char) : Reads (word letters) (letters ++ rest) rest () := by
  induction letters with
  | nil => exact Reads.pure () rest
  | cons a letters ih =>
    unfold word
    refine (reads_peek _).bind ?_
    simp only [List.cons_append, List.head?_cons, if_true]
    exact (reads_advance a _).bind ih

/-- The characters that satisfy a condition are passed up to the first one that does not. -/
theorem passWhile_append {p : Char → Bool} {taken rest : List Char} (htaken : ∀ c ∈ taken, p c)
    (hrest : ∀ c, rest.head? = some c → p c = false) (position : Position) :
    ∃ q, passWhile p (taken ++ rest) position = ⟨rest, q⟩ := by
  induction taken generalizing position with
  | nil =>
    cases rest with
    | nil => exact ⟨position, rfl⟩
    | cons c rest =>
      have hc : p c = false := hrest c rfl
      exact ⟨position, by simp [passWhile, hc]⟩
  | cons c taken ih =>
    have hc : p c = true := htaken c List.mem_cons_self
    obtain ⟨q, hq⟩ := ih (fun d hd => htaken d (List.mem_cons_of_mem c hd)) (position.after c)
    exact ⟨q, by simpa [passWhile, hc] using hq⟩

/-- Blanks are passed up to the first character that is none. -/
theorem reads_blanks {taken rest : List Char} (htaken : ∀ c ∈ taken, isBlank c)
    (hrest : ∀ c, rest.head? = some c → isBlank c = false) :
    Reads blanks (taken ++ rest) rest () := by
  intro p
  obtain ⟨q, hq⟩ := passWhile_append htaken hrest p
  exact ⟨q, by rw [blanks, Cursor.afterBlanks, hq]⟩

/-- Where there are no blanks, none are passed. -/
theorem reads_blanks_cons {c : Char} (rest : List Char) (hc : isBlank c = false) :
    Reads blanks (c :: rest) (c :: rest) () := by
  have hread : Reads blanks ([] ++ c :: rest) (c :: rest) () := by
    refine reads_blanks (List.forall_mem_nil _) fun d hd => ?_
    obtain rfl := Option.some.inj hd
    exact hc
  exact hread

/-- Digits are taken up to the first character that is none. -/
theorem reads_digits {taken rest : List Char} (htaken : ∀ c ∈ taken, c.isDigit)
    (hrest : ∀ c, rest.head? = some c → c.isDigit = false) :
    Reads digits (taken ++ rest) rest taken := by
  intro p
  obtain ⟨q, hq⟩ := passWhile_append htaken hrest p
  have htake : (taken ++ rest).takeWhile Char.isDigit = taken := by
    rw [List.takeWhile_append_of_pos htaken]
    cases rest with
    | nil => simp
    | cons c rest => simp [hrest c rfl]
  exact ⟨q, by simp only [digits, hq, htake]⟩

/-! ### Numbers -/

/-- What stands after a number does not continue it. -/
def EndsNumber (rest : List Char) : Prop :=
  ∀ c, rest.head? = some c → c.isDigit = false ∧ c ≠ '.' ∧ c ≠ 'e' ∧ c ≠ 'E'

/-- The character of a decimal digit is a digit, and zero's only for zero. -/
theorem digitChar_of_lt_ten : ∀ n < 10, n.digitChar.isDigit ∧ (n.digitChar = '0' → n = 0) := by
  decide

/-- A decimal numeral starts with a digit, which is zero only for the number zero. -/
theorem toDigits_eq_cons (n : Nat) :
    ∃ c ds, Nat.toDigits 10 n = c :: ds ∧ c.isDigit ∧ (c = '0' → n = 0 ∧ ds = []) := by
  induction n using Nat.strongRecOn with
  | ind n ih =>
    rw [Nat.toDigits_eq_if (by decide)]
    by_cases hn : n < 10
    · obtain ⟨hdigit, hzero⟩ := digitChar_of_lt_ten n hn
      exact ⟨n.digitChar, [], by rw [if_pos hn], hdigit, fun h => ⟨hzero h, rfl⟩⟩
    · obtain ⟨c, ds, hcons, hc, hzero⟩ := ih (n / 10) (by omega)
      refine ⟨c, ds ++ [(n % 10).digitChar], by rw [if_neg hn, hcons]; rfl, hc, fun h => ?_⟩
      -- a number with two digits or more does not lead with a zero
      have := (hzero h).1
      omega

/-- The digits of a numeral are digits. -/
theorem isDigit_of_mem_toDigits {n : Nat} : ∀ c ∈ Nat.toDigits 10 n, c.isDigit :=
  fun _ hc => Nat.isDigit_of_mem_toDigits (by decide) (by decide) hc

/-- What is no digit does not stand in a number. -/
theorem not_mem_toDigits {c : Char} (hc : c.isDigit = false) (n : Nat) :
    c ∉ Nat.toDigits 10 n := by
  intro h
  rw [isDigit_of_mem_toDigits c h] at hc
  cases hc

/-- Further digits do not make a number smaller. -/
theorem le_ofDigitChars (significand : Nat) (ds : List Char) :
    significand ≤ Nat.ofDigitChars 10 ds significand := by
  induction ds generalizing significand with
  | nil => simp
  | cons d ds ih =>
    rw [Nat.ofDigitChars_cons]
    have := ih (10 * significand + (d.toNat - '0'.toNat))
    omega

/-- Digits of a number that fits 64 bits are all absorbed. -/
theorem absorb_eq {significand : Nat} {ds : List Char}
    (h : Nat.ofDigitChars 10 ds significand < UInt64.size) :
    absorb significand ds = (Nat.ofDigitChars 10 ds significand, []) := by
  induction ds generalizing significand with
  | nil => rfl
  | cons d ds ih =>
    rw [Nat.ofDigitChars_cons] at h ⊢
    have hfits := Nat.lt_of_le_of_lt (le_ofDigitChars _ ds) h
    rw [absorb]
    exact (if_pos hfits).trans (ih h)

/-- Digits are taken as the whole part of a number, unless a zero stands before others. -/
theorem reads_wholePart_cons {c : Char} {ds : List Char} (hdigits : ∀ d ∈ c :: ds, d.isDigit)
    (hzero : c = '0' → ds = []) {rest : List Char}
    (hrest : ∀ d, rest.head? = some d → d.isDigit = false) :
    Reads wholePart (c :: ds ++ rest) rest (c :: ds) := by
  have hc : c.isDigit := hdigits c List.mem_cons_self
  unfold wholePart
  refine (reads_peek _).bind ?_
  simp only [List.cons_append, List.head?_cons]
  by_cases h0 : c = '0'
  · obtain rfl := hzero h0
    simp only [h0, if_true, List.nil_append]
    refine (reads_advance '0' rest).bind ((reads_peek rest).bind ?_)
    cases rest with
    | nil => exact Reads.pure _ _
    | cons d rest =>
      have hd : d.isDigit = false := hrest d rfl
      simp only [List.head?_cons, hd]
      exact Reads.pure _ _
  · simp only [h0, hc, if_true, if_false]
    exact reads_digits hdigits hrest

/-- A numeral is taken as the whole part of a number. -/
theorem reads_wholePart (n : Nat) {rest : List Char}
    (hrest : ∀ c, rest.head? = some c → c.isDigit = false) :
    Reads wholePart (Nat.toDigits 10 n ++ rest) rest (Nat.toDigits 10 n) := by
  obtain ⟨c, ds, hcons, hc, hzero⟩ := toDigits_eq_cons n
  have hdigits : ∀ d ∈ c :: ds, d.isDigit := hcons ▸ isDigit_of_mem_toDigits
  rw [hcons]
  exact reads_wholePart_cons hdigits (fun h => (hzero h).2) hrest

/-- Where no point stands there is no fraction. -/
theorem reads_fractionPart {rest : List Char} (h : EndsNumber rest) :
    Reads fractionPart rest rest none := by
  unfold fractionPart
  refine (reads_peek rest).bind ?_
  have hpoint : rest.head? ≠ some '.' := fun hc => (h _ hc).2.1 rfl
  rw [if_neg hpoint]
  exact Reads.pure none rest

/-- Where no mark stands there is no exponent. -/
theorem reads_exponentPart {rest : List Char} (h : EndsNumber rest) :
    Reads exponentPart rest rest none := by
  unfold exponentPart
  refine (reads_peek rest).bind ?_
  have hlower : rest.head? ≠ some 'e' := fun hc => (h _ hc).2.2.1 rfl
  have hupper : rest.head? ≠ some 'E' := fun hc => (h _ hc).2.2.2 rfl
  simp only [hlower, hupper, decide_false, Bool.or_self, Bool.false_eq_true, if_false]
  exact Reads.pure none rest

/-- A numeral that fits 64 bits is read as an integer. -/
theorem reads_unsignedNumber {negative : Bool} {n : Nat} (hn : n < UInt64.size)
    {rest : List Char} (h : EndsNumber rest) :
    Reads (unsignedNumber negative) (Nat.toDigits 10 n ++ rest) rest
      (signedInteger negative n) := by
  have habsorb : absorb 0 (Nat.toDigits 10 n) = (n, []) := by
    rw [absorb_eq (by simpa using hn), Nat.ofDigitChars_ten_toDigits]
  unfold unsignedNumber
  refine (reads_wholePart n fun c hc => (h c hc).1).bind ?_
  refine (reads_fractionPart h).bind ((reads_exponentPart h).bind ?_)
  rw [habsorb]
  exact Reads.pure _ rest

/-- **An integer of a word is read back.** -/
theorem reads_number {i : Int} (hi : InWordRange i) {rest : List Char} (h : EndsNumber rest) :
    Reads number (integerText i ++ rest) rest (.integer i) := by
  obtain ⟨hlow, hhigh⟩ := hi
  have hsize : i.natAbs < UInt64.size := by
    simp only [UInt64.size]
    omega
  unfold number integerText
  refine (reads_peek _).bind ?_
  by_cases hneg : i < 0
  · simp only [hneg, if_true, List.cons_append, List.head?_cons]
    refine (reads_advance '-' _).bind ?_
    have hvalue : signedInteger true i.natAbs = .integer i := by
      have hrange : ¬ (i.natAbs = 0 || UInt64.size / 2 < i.natAbs) := by
        simp only [UInt64.size, Bool.or_eq_true, decide_eq_true_eq]
        omega
      rw [signedInteger, if_pos rfl, if_neg hrange]
      congr 1
      omega
    rw [← hvalue]
    exact reads_unsignedNumber hsize h
  · obtain ⟨c, ds, hcons, hc, -⟩ := toDigits_eq_cons i.natAbs
    have hminus : (Nat.toDigits 10 i.natAbs ++ rest).head? ≠ some '-' := by
      rw [hcons]
      rintro hhead
      obtain rfl := Option.some.inj hhead
      exact absurd hc (by decide)
    simp only [hneg, hminus, if_false]
    have hvalue : signedInteger false i.natAbs = .integer i := by
      rw [signedInteger, if_neg (by simp)]
      congr 1
      omega
    rw [← hvalue]
    exact reads_unsignedNumber hsize h

/-! ### Texts -/

/-- Hexadecimal digits are read back. -/
theorem hexValue?_digitChar : ∀ n < 16, hexValue? n.digitChar = some n := by decide

/-- An escape by a letter is read back. -/
theorem reads_escaped_letter {letter c : Char} (h : letterEscape? letter = some c)
    (hu : letter ≠ 'u') (rest : List Char) : Reads escaped (letter :: rest) rest c := by
  unfold escaped
  refine (reads_peek _).bind ?_
  simp only [List.head?_cons, hu, if_false, h]
  exact (reads_advance letter rest).bind (Reads.pure c rest)

/-- Four hexadecimal digits of a control character are its code. -/
theorem reads_hexQuad {c : Char} (hc : c.toNat < 0x20) (rest : List Char) :
    Reads hexQuad ('0' :: '0' :: hexDigit (c.toNat / 16) :: hexDigit c.toNat :: rest) rest
      c.toNat := by
  intro p
  have hhigh : hexValue? (hexDigit (c.toNat / 16)) = some (c.toNat / 16 % 16) :=
    hexValue?_digitChar _ (Nat.mod_lt _ (by decide))
  have hlow : hexValue? (hexDigit c.toNat) = some (c.toNat % 16) :=
    hexValue?_digitChar _ (Nat.mod_lt _ (by decide))
  have hzero : hexValue? '0' = some 0 := rfl
  have hquad : hexQuadValue? '0' '0' (hexDigit (c.toNat / 16)) (hexDigit c.toNat) =
      some c.toNat := by
    simp only [hexQuadValue?, hhigh, hlow, hzero, bind, Option.bind, pure]
    congr 1
    omega
  refine ⟨(((p.after '0').after '0').after (hexDigit (c.toNat / 16))).after (hexDigit c.toNat), ?_⟩
  simp only [hexQuad, hquad]
  rfl

/-- An escape by a code unit is read back. -/
theorem reads_escaped_unit {c : Char} (hc : c.toNat < 0x20) (rest : List Char) :
    Reads escaped ('u' :: '0' :: '0' :: hexDigit (c.toNat / 16) :: hexDigit c.toNat :: rest) rest
      c := by
  unfold escaped
  refine (reads_peek _).bind ?_
  simp only [List.head?_cons, if_true]
  refine (reads_advance 'u' _).bind ?_
  unfold unitEscape
  refine (reads_hexQuad hc rest).bind ?_
  have hlow : ¬ (0xDC00 ≤ c.toNat ∧ c.toNat ≤ 0xDFFF) := by omega
  have hhigh : ¬ (0xD800 ≤ c.toNat ∧ c.toNat ≤ 0xDBFF) := by omega
  rw [if_neg hlow, if_neg hhigh, Char.ofNat_toNat]
  exact Reads.pure c rest

/-- A character between quotes stands for itself, or is escaped by a letter or by its code. -/
theorem escape_shape (c : Char) :
    (escape c = [c] ∧ c ≠ '"' ∧ c ≠ '\\' ∧ 0x20 ≤ c.toNat) ∨
      (∃ letter, escape c = ['\\', letter] ∧ letterEscape? letter = some c ∧ letter ≠ 'u') ∨
      (escape c = ['\\', 'u', '0', '0', hexDigit (c.toNat / 16), hexDigit c.toNat] ∧
        c.toNat < 0x20) := by
  unfold escape
  split
  · next h => exact .inr (.inl ⟨_, rfl, by rw [h]; rfl, by decide⟩)
  split
  · next h => exact .inr (.inl ⟨_, rfl, by rw [h]; rfl, by decide⟩)
  split
  · next h => exact .inr (.inl ⟨_, rfl, by rw [h]; rfl, by decide⟩)
  split
  · next h => exact .inr (.inl ⟨_, rfl, by rw [h]; rfl, by decide⟩)
  split
  · next h => exact .inr (.inl ⟨_, rfl, by rw [h]; rfl, by decide⟩)
  split
  · next h => exact .inr (.inl ⟨_, rfl, by rw [h]; rfl, by decide⟩)
  split
  · next h => exact .inr (.inl ⟨_, rfl, by rw [h]; rfl, by decide⟩)
  split
  · next h => exact .inr (.inr ⟨rfl, h⟩)
  · next hquote hbackslash _ _ _ _ _ hcontrol =>
    exact .inl ⟨rfl, hquote, hbackslash, Nat.le_of_not_lt hcontrol⟩

/-- A character between quotes either stands for itself or is an escape that is read back. -/
theorem escape_cases (c : Char) :
    (escape c = [c] ∧ c ≠ '"' ∧ c ≠ '\\' ∧ 0x20 ≤ c.toNat) ∨
      ∃ tail, escape c = '\\' :: tail ∧ ∀ rest, Reads escaped (tail ++ rest) rest c := by
  rcases escape_shape c with hself | ⟨letter, hescape, hletter, hu⟩ | ⟨hescape, hcontrol⟩
  · exact .inl hself
  · exact .inr ⟨[letter], hescape, fun rest => reads_escaped_letter hletter hu rest⟩
  · exact .inr ⟨_, hescape, fun rest => reads_escaped_unit hcontrol rest⟩

/-- Escaped characters are read back up to the closing quote. -/
theorem reads_textChars {cs : List Char} {fuel : Nat} (hfuel : cs.length < fuel)
    (rest : List Char) : Reads (textChars fuel) (cs.flatMap escape ++ '"' :: rest) rest cs := by
  induction cs generalizing fuel with
  | nil =>
    obtain ⟨fuel, rfl⟩ := Nat.exists_eq_succ_of_ne_zero (Nat.ne_of_gt hfuel)
    unfold textChars
    refine (reads_peek _).bind ?_
    exact (reads_advance '"' rest).bind (Reads.pure [] rest)
  | cons c cs ih =>
    simp only [List.length_cons] at hfuel
    obtain ⟨fuel, rfl⟩ : ∃ n, fuel = n + 1 := ⟨fuel - 1, by omega⟩
    have htail : Reads (textChars fuel) (cs.flatMap escape ++ '"' :: rest) rest cs :=
      ih (by omega)
    unfold textChars
    refine (reads_peek _).bind ?_
    rw [List.flatMap_cons, List.append_assoc]
    rcases escape_cases c with ⟨hescape, hquote, hbackslash, hvisible⟩ | ⟨tail, hescape, hread⟩
    · have hcontrol : ¬ c.toNat < 0x20 := Nat.not_lt.2 hvisible
      simp only [hescape, List.cons_append, List.nil_append, List.head?_cons, hquote, hbackslash,
        hcontrol, if_false]
      exact (reads_advance c _).bind (htail.bind (Reads.pure _ rest))
    · simp only [hescape, List.cons_append, List.head?_cons, Char.reduceEq, if_true, if_false]
      exact (reads_advance '\\' _).bind ((hread _).bind (htail.bind (Reads.pure _ rest)))

/-- An escape takes a character at least. -/
theorem length_le_flatMap_escape (cs : List Char) : cs.length ≤ (cs.flatMap escape).length := by
  induction cs with
  | nil => simp
  | cons c cs ih =>
    have hc : 1 ≤ (escape c).length := by
      rcases escape_cases c with ⟨h, -⟩ | ⟨tail, h, -⟩ <;> simp [h]
    simp only [List.flatMap_cons, List.length_append, List.length_cons]
    omega

/-- **A quoted text is read back**, after its opening quote. -/
theorem reads_textTail (s : String) (rest : List Char) :
    Reads textTail (s.toList.flatMap escape ++ '"' :: rest) rest s := by
  intro p
  have hfuel : s.toList.length < (s.toList.flatMap escape ++ '"' :: rest).length + 1 := by
    have := length_le_flatMap_escape s.toList
    simp only [List.length_append]
    omega
  have hread := (reads_textChars hfuel rest).map fun chars => String.ofList chars
  rw [String.ofList_toList] at hread
  exact hread p

end CopyTrial.Json
