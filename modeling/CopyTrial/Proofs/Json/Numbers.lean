import CopyTrial.Proofs.Json.Reads

/-!
# How numbers are spelled

Whatever integer or double is written, its text has one shape: a sign, digits of which a zero can
only be the sole one, a fraction and an exponent. A double always has a fraction or an exponent. So
no reader takes it for an integer, and an integer that fits no word is not taken for one either.

## Main definitions

* `Json.IsMagnitude` — the shape of a number without its sign.

## Main results

* `Json.exists_decimalText_eq` — the text of a double has the shape.
* `Json.eq_double_of_number_decimalText`, `Json.eq_double_of_number_integerText` — what is read from
  the text of a double, or of an integer that fits no word, is a double if it is anything.
-/

set_option autoImplicit false

namespace CopyTrial

namespace Decimal

/-- A number of units on a grid is not zero. -/
theorem onGrid_ne_zero {b : Binary} {p : Int} {units : Nat} (h : onGrid b p = some units) :
    units ≠ 0 := by
  simp only [onGrid] at h
  split at h
  · next hbelow _ =>
    obtain rfl := Option.some.inj h
    simp only [Bool.and_eq_true, bne_iff_ne, ne_eq] at hbelow
    exact hbelow.1
  · obtain rfl := Option.some.inj h
    exact Nat.succ_ne_zero _
  · cases h
  · next hbelow _ =>
    simp only [Bool.and_eq_true, bne_iff_ne, ne_eq] at hbelow
    split at h
    · obtain rfl := Option.some.inj h
      exact hbelow.1
    · obtain rfl := Option.some.inj h
      exact Nat.succ_ne_zero _

/-- A decimal that is found on one of several grids is not zero. -/
theorem search_units_ne_zero {b : Binary} {tries : Nat} {p : Int} {d : Scaled}
    (h : search b tries p = some d) : d.units ≠ 0 := by
  induction tries generalizing p with
  | zero => cases h
  | succ tries ih =>
    rw [search] at h
    split at h
    · next hgrid =>
      obtain rfl := Option.some.inj h
      exact onGrid_ne_zero hgrid
    · exact ih h

/-- A shortest decimal that is zero has no power of ten. -/
theorem exponent_shortest_of_units_eq_zero {b : Binary} (h : (shortest b).units = 0) :
    (shortest b).exponent = 0 := by
  rw [shortest] at h ⊢
  cases hsearch : search b 652 309 with
  | none => rfl
  | some d =>
    rw [hsearch] at h
    exact absurd h (search_units_ne_zero hsearch)

end Decimal

namespace Json

/-! ## The shape -/

/-- A number without its sign: digits of which a zero can only be the sole one, a fraction and an
exponent, each with digits of its own if it is there. -/
structure IsMagnitude (whole fraction exponent : List Char) : Prop where
  whole_eq : ∃ c ds, whole = c :: ds ∧ (c = '0' → ds = [])
  isDigit : ∀ c ∈ whole, c.isDigit
  fraction_eq : fraction = [] ∨
    ∃ ds, fraction = '.' :: ds ∧ ds ≠ [] ∧ ∀ d ∈ ds, d.isDigit
  exponent_eq : exponent = [] ∨
    ∃ sign ds, exponent = 'e' :: sign :: ds ∧ (sign = '-' ∨ sign = '+') ∧ ds ≠ [] ∧
      ∀ d ∈ ds, d.isDigit

/-- A numeral is a number without fraction and exponent. -/
theorem isMagnitude_toDigits (n : Nat) : IsMagnitude (Nat.toDigits 10 n) [] [] := by
  obtain ⟨c, ds, hcons, -, hzero⟩ := toDigits_eq_cons n
  exact ⟨⟨c, ds, hcons, fun h => (hzero h).2⟩, isDigit_of_mem_toDigits, .inl rfl, .inl rfl⟩

/-- Zeros are digits. -/
theorem isDigit_of_mem_replicate {n : Nat} : ∀ c ∈ List.replicate n '0', c.isDigit := by
  intro c hc
  rw [List.eq_of_mem_replicate hc]
  rfl

/-- A zero is a digit. -/
theorem isDigit_of_mem_zero : ∀ c ∈ ['0'], c.isDigit := List.forall_mem_singleton.2 rfl

/-- Digits with a point among them are a number. -/
theorem isMagnitude_point {c : Char} {ds fraction : List Char} (hfirst : c = '0' → ds = [])
    (hwhole : ∀ x ∈ c :: ds, x.isDigit) (hne : fraction ≠ [])
    (hfraction : ∀ x ∈ fraction, x.isDigit) : IsMagnitude (c :: ds) ('.' :: fraction) [] :=
  ⟨⟨c, ds, rfl, hfirst⟩, hwhole, .inr ⟨fraction, rfl, hne, hfraction⟩, .inl rfl⟩

/-- A power of ten is an exponent. -/
theorem exists_exponent_eq (e : Int) :
    ∃ sign ds, 'e' :: (if e < 0 then '-' else '+') :: Nat.toDigits 10 e.natAbs = 'e' :: sign :: ds ∧
      (sign = '-' ∨ sign = '+') ∧ ds ≠ [] ∧ ∀ d ∈ ds, d.isDigit := by
  refine ⟨_, _, rfl, ?_, ?_, isDigit_of_mem_toDigits⟩
  · split <;> simp
  · obtain ⟨c, ds, hcons, -⟩ := toDigits_eq_cons e.natAbs
    simp [hcons]

/-- The text of a decimal has the shape of a number, with a fraction or an exponent, unless it is
zero with a power of ten.

**Proof sketch.** One case for each of the four layouts. The first digit is a zero only if the
decimal is zero, and then it is written without a power of ten or after the point. -/
theorem exists_scaledText_eq {d : Decimal.Scaled} (hzero : d.units = 0 → d.exponent = 0) :
    ∃ whole fraction exponent, scaledText decimalFormat d = whole ++ (fraction ++ exponent) ∧
      IsMagnitude whole fraction exponent ∧ (fraction ≠ [] ∨ exponent ≠ []) := by
  obtain ⟨c, ds, hcons, hc, hfirst⟩ := toDigits_eq_cons d.units
  have hdigits : ∀ x ∈ c :: ds, x.isDigit := hcons ▸ isDigit_of_mem_toDigits
  have hone : ∀ x ∈ [c], x.isDigit := by simpa using hc
  simp only [scaledText, hcons, List.length_cons]
  split
  · split
    · -- a whole number
      refine ⟨c :: (ds ++ List.replicate d.exponent.toNat '0'), ['.', '0'], [], by simp,
        isMagnitude_point (fun h => ?_) ?_ (by simp) isDigit_of_mem_zero, .inl (by simp)⟩
      · obtain ⟨hunits, rfl⟩ := hfirst h
        rw [hzero hunits]
        rfl
      · rw [← List.cons_append]
        exact List.forall_mem_append.2 ⟨hdigits, isDigit_of_mem_replicate⟩
    · split
      · -- the point stands between the digits
        next hneg hpos =>
        obtain ⟨k, hk, hlt⟩ : ∃ k : Nat, (d.exponent + (ds.length + 1 : Nat) - 1).toNat = k ∧
            k < ds.length := ⟨_, rfl, by omega⟩
        rw [hk]
        refine ⟨c :: ds.take k, '.' :: (c :: ds).drop (k + 1), [], by simp,
          isMagnitude_point (fun h => ?_) (fun x hx => ?_) ?_ (fun x hx => ?_), .inl (by simp)⟩
        · rw [(hfirst h).2, List.take_nil]
        · rw [← List.take_succ_cons] at hx
          exact hdigits x (List.mem_of_mem_take hx)
        · rw [List.drop_succ_cons, ne_eq, List.drop_eq_nil_iff]
          omega
        · exact hdigits x (List.mem_of_mem_drop hx)
      · -- the point stands before the digits
        refine ⟨['0'], _, [], by simp; rfl, isMagnitude_point (fun _ => rfl) isDigit_of_mem_zero
          (by simp) ?_, .inl (by simp)⟩
        exact List.forall_mem_append.2 ⟨isDigit_of_mem_replicate, hdigits⟩
  · split
    · -- one digit with a power of ten
      next hlength =>
      obtain rfl : ds = [] := List.length_eq_zero_iff.1 (by omega)
      exact ⟨[c], [], _, rfl, ⟨⟨c, [], rfl, fun _ => rfl⟩, hone, .inl rfl,
        .inr (exists_exponent_eq _)⟩, .inr (by simp)⟩
    · -- a point after the first digit, and a power of ten
      next hlength =>
      have hne : ds ≠ [] := fun h => hlength (by simp [h])
      exact ⟨[c], '.' :: ds, _, rfl, ⟨⟨c, [], rfl, fun _ => rfl⟩, hone, .inr ⟨ds, rfl, hne,
        fun x hx => hdigits x (List.mem_cons_of_mem c hx)⟩, .inr (exists_exponent_eq _)⟩,
        .inl (by simp)⟩

/-- **The text of a double has the shape of a number**, with a fraction or an exponent, after a minus
sign or none. -/
theorem exists_decimalText_eq (x : Float) :
    ∃ sign whole fraction exponent,
      decimalText x = sign ++ (whole ++ (fraction ++ exponent)) ∧ (sign = [] ∨ sign = ['-']) ∧
        IsMagnitude whole fraction exponent ∧ (fraction ≠ [] ∨ exponent ≠ []) := by
  obtain ⟨whole, fraction, exponent, heq, hmagnitude, hdouble⟩ :
      ∃ whole fraction exponent,
        (if (Decimal.Binary.ofBits x.toBits).significand = 0 then ['0', '.', '0']
          else scaledText decimalFormat (Decimal.shortest (Decimal.Binary.ofBits x.toBits))) =
            whole ++ (fraction ++ exponent) ∧
          IsMagnitude whole fraction exponent ∧ (fraction ≠ [] ∨ exponent ≠ []) := by
    split
    · exact ⟨['0'], ['.', '0'], [], rfl, isMagnitude_point (fun _ => rfl) isDigit_of_mem_zero
        (by simp) isDigit_of_mem_zero, .inl (by simp)⟩
    · exact exists_scaledText_eq Decimal.exponent_shortest_of_units_eq_zero
  simp only [decimalText, heq]
  split
  · exact ⟨['-'], whole, fraction, exponent, rfl, .inr rfl, hmagnitude, hdouble⟩
  · exact ⟨[], whole, fraction, exponent, rfl, .inl rfl, hmagnitude, hdouble⟩

/-- An integer starts with a minus sign or a digit. -/
theorem integerText_eq_cons (i : Int) :
    ∃ c cs, integerText i = c :: cs ∧ (c = '-' ∨ c.isDigit) := by
  obtain ⟨c, ds, hcons, hc, -⟩ := toDigits_eq_cons i.natAbs
  by_cases h : i < 0
  · exact ⟨'-', _, by rw [integerText, if_pos h], .inl rfl⟩
  · exact ⟨c, ds, by rw [integerText, if_neg h, hcons], .inr hc⟩

/-- A double starts with a minus sign or a digit. -/
theorem decimalText_eq_cons (x : Float) :
    ∃ c cs, decimalText x = c :: cs ∧ (c = '-' ∨ c.isDigit) := by
  obtain ⟨sign, whole, fraction, exponent, heq, hsign, hmagnitude, -⟩ := exists_decimalText_eq x
  obtain ⟨d, ds, hwhole, -⟩ := hmagnitude.whole_eq
  have hd : d.isDigit := hmagnitude.isDigit d (hwhole ▸ List.mem_cons_self)
  rw [heq, hwhole]
  rcases hsign with rfl | rfl
  · exact ⟨d, _, rfl, .inr hd⟩
  · exact ⟨'-', _, rfl, .inl rfl⟩

/-! ## What is read from a number -/

/-- Two readers succeed one after the other if the second one does where the first one stops. -/
theorem bind_reader_eq_ok_iff {α β : Type} {reader : Reader α} {next : α → Reader β} {c c' : Cursor}
    {b : β} :
    (reader >>= next) c = .ok (b, c') ↔
      ∃ a between, reader c = .ok (a, between) ∧ next a between = .ok (b, c') := by
  simp only [Bind.bind, StateT.bind, Except.bind]
  cases h : reader c with
  | error e => simp
  | ok result =>
    obtain ⟨a, between⟩ := result
    constructor
    · exact fun hnext => ⟨a, between, rfl, hnext⟩
    · rintro ⟨a', between', heq, hnext⟩
      obtain ⟨rfl, rfl⟩ := Prod.mk.inj (Except.ok.inj heq)
      exact hnext

/-- A reader that follows an optional step starts somewhere. -/
theorem exists_of_optional_step {α β : Type} {condition : Prop} [Decidable condition]
    {step : Reader α} {reader : Reader β} {c c' : Cursor} {b : β}
    (h : (if condition then (do let _ ← step; reader) else reader) c = .ok (b, c')) :
    ∃ between, reader between = .ok (b, c') := by
  split at h
  · obtain ⟨_, between, -, h⟩ := bind_reader_eq_ok_iff.1 h
    exact ⟨between, h⟩
  · exact ⟨c, h⟩

/-- A number is a double unless it has neither fraction nor exponent and all its digits are
absorbed. -/
theorem eq_double_or_of_unsignedNumber {negative : Bool} {c c' : Cursor} {j : Json}
    (h : unsignedNumber negative c = .ok (j, c')) :
    (∃ x, j = .double x) ∨
      ∃ whole c₁ c₂, wholePart c = .ok (whole, c₁) ∧ fractionPart c₁ = .ok (none, c₂) ∧
        exponentPart c₂ = .ok (none, c') ∧ (absorb 0 whole).2 = [] ∧
        j = signedInteger negative (absorb 0 whole).1 := by
  rw [unsignedNumber, bind_reader_eq_ok_iff] at h
  obtain ⟨whole, c₁, hwhole, h⟩ := h
  rw [bind_reader_eq_ok_iff] at h
  obtain ⟨fraction, c₂, hfraction, h⟩ := h
  rw [bind_reader_eq_ok_iff] at h
  obtain ⟨exponent, c₃, hexponent, h⟩ := h
  have hdouble : ∀ x, (pure (signedDouble negative x) : Reader Json) c₃ = .ok (j, c') →
      ∃ x, j = .double x := by
    intro x hx
    obtain ⟨rfl, -⟩ := Prod.mk.inj (Except.ok.inj hx)
    exact ⟨_, rfl⟩
  simp only at h
  split at h
  · next hplain =>
    simp only [Bool.and_eq_true, List.isEmpty_iff, Option.isNone_iff_eq_none] at hplain
    obtain ⟨⟨hleft, rfl⟩, rfl⟩ := hplain
    obtain ⟨rfl, rfl⟩ := Prod.mk.inj (Except.ok.inj h)
    exact .inr ⟨whole, c₁, c₂, hwhole, hfraction, hexponent, hleft, rfl⟩
  · -- every other number that is given is a double
    left
    cases exponent with
    | none =>
      simp only at h
      generalize magnitude? _ _ = found at h
      cases found with
      | some x => exact hdouble x h
      | none => cases h
    | some e =>
      simp only at h
      generalize exponentExcess _ _ _ = excess at h
      cases excess with
      | some count =>
        simp only at h
        split at h
        · cases h
        · exact hdouble _ h
      | none =>
        simp only at h
        generalize magnitude? _ _ = found at h
        cases found with
        | some x => exact hdouble x h
        | none => cases h

/-- A fraction is read with its digits. -/
theorem reads_fractionPart_cons {ds : List Char} (hne : ds ≠ []) (hdigits : ∀ d ∈ ds, d.isDigit)
    {rest : List Char} (hrest : ∀ c, rest.head? = some c → c.isDigit = false) :
    Reads fractionPart ('.' :: (ds ++ rest)) rest (some ds) := by
  unfold fractionPart
  refine (reads_peek _).bind ?_
  rw [List.head?_cons, if_pos rfl]
  refine (reads_advance '.' _).bind ((reads_digits hdigits hrest).bind ?_)
  have hempty : ds.isEmpty = false := by simpa using hne
  rw [hempty]
  exact Reads.pure (some ds) rest

/-- Where the mark of an exponent stands, an exponent is read. -/
theorem exponentPart_ne_none (cs : List Char) (p : Position) (c : Cursor) :
    exponentPart ⟨'e' :: cs, p⟩ ≠ .ok (none, c) := by
  intro h
  rw [exponentPart] at h
  obtain ⟨mark, c₁, hmark, h⟩ := bind_reader_eq_ok_iff.1 h
  obtain ⟨rfl, rfl⟩ := Prod.mk.inj (Except.ok.inj hmark)
  rw [List.head?_cons, if_pos (by decide)] at h
  obtain ⟨_, c₂, -, h⟩ := bind_reader_eq_ok_iff.1 h
  obtain ⟨sign, c₃, -, h⟩ := bind_reader_eq_ok_iff.1 h
  -- with a sign or without one, digits must come next
  obtain ⟨c₄, h⟩ := exists_of_optional_step h
  obtain ⟨next, c₅, -, h⟩ := bind_reader_eq_ok_iff.1 h
  split at h
  · cases h
  · split at h
    · obtain ⟨before, c₆, -, h⟩ := bind_reader_eq_ok_iff.1 h
      obtain ⟨ds, c₇, -, h⟩ := bind_reader_eq_ok_iff.1 h
      cases h
    · cases h

namespace IsMagnitude

variable {whole fraction exponent : List Char}

/-- After the whole part no digit follows. -/
theorem not_isDigit_fraction (h : IsMagnitude whole fraction exponent) {rest : List Char}
    (hrest : EndsNumber rest) :
    ∀ c, (fraction ++ (exponent ++ rest)).head? = some c → c.isDigit = false := by
  rcases h.fraction_eq with rfl | ⟨ds, rfl, -⟩
  · rcases h.exponent_eq with rfl | ⟨sign, ds, rfl, -⟩
    · exact fun c hc => (hrest c hc).1
    · intro c hc
      obtain rfl := Option.some.inj hc
      rfl
  · intro c hc
    obtain rfl := Option.some.inj hc
    rfl

/-- After the fraction no digit follows. -/
theorem not_isDigit_exponent (h : IsMagnitude whole fraction exponent) {rest : List Char}
    (hrest : EndsNumber rest) :
    ∀ c, (exponent ++ rest).head? = some c → c.isDigit = false :=
  have hbare : IsMagnitude whole [] exponent := ⟨h.whole_eq, h.isDigit, .inl rfl, h.exponent_eq⟩
  hbare.not_isDigit_fraction hrest

/-- The whole part is read. -/
theorem reads_wholePart (h : IsMagnitude whole fraction exponent) {rest : List Char}
    (hrest : EndsNumber rest) :
    Reads wholePart (whole ++ (fraction ++ (exponent ++ rest))) (fraction ++ (exponent ++ rest))
      whole := by
  obtain ⟨c, ds, rfl, hzero⟩ := h.whole_eq
  exact reads_wholePart_cons h.isDigit hzero (h.not_isDigit_fraction hrest)

/-- A number with a fraction or an exponent is read as a double, if it is read at all. -/
theorem eq_double_of_unsignedNumber (h : IsMagnitude whole fraction exponent)
    (hdouble : fraction ≠ [] ∨ exponent ≠ []) {rest : List Char} (hrest : EndsNumber rest)
    {negative : Bool} {p : Position} {j : Json} {c : Cursor}
    (hread : unsignedNumber negative ⟨whole ++ (fraction ++ (exponent ++ rest)), p⟩ =
      .ok (j, c)) : ∃ x, j = .double x := by
  rcases eq_double_or_of_unsignedNumber hread with hj | ⟨whole', c₁, c₂, hwhole, hnone, hbare, -⟩
  · exact hj
  · exfalso
    obtain ⟨q, hq⟩ := h.reads_wholePart hrest p
    obtain ⟨-, rfl⟩ := Prod.mk.inj (Except.ok.inj (hq.symm.trans hwhole))
    rcases h.fraction_eq with rfl | ⟨ds, rfl, hne, hdigits⟩
    · rcases h.exponent_eq with rfl | ⟨sign, ds, rfl, -⟩
      · simp at hdouble
      · obtain ⟨-, rfl⟩ := Prod.mk.inj (Except.ok.inj hnone)
        exact exponentPart_ne_none _ _ _ hbare
    · obtain ⟨r, hr⟩ := reads_fractionPart_cons hne hdigits (h.not_isDigit_exponent hrest) q
      have hsome := hr.symm.trans hnone
      cases hsome

end IsMagnitude

/-- A number is read after its sign. -/
theorem number_eq_ok {sign : List Char} (hsign : sign = [] ∨ sign = ['-']) {d : Char}
    (hd : d.isDigit) {cs : List Char} {p : Position} {j : Json} {c : Cursor}
    (h : number ⟨sign ++ d :: cs, p⟩ = .ok (j, c)) :
    ∃ q, unsignedNumber (decide (sign = ['-'])) ⟨d :: cs, q⟩ = .ok (j, c) := by
  rw [number, bind_reader_eq_ok_iff] at h
  obtain ⟨mark, c₁, hmark, h⟩ := h
  obtain ⟨rfl, rfl⟩ := Prod.mk.inj (Except.ok.inj hmark)
  rcases hsign with rfl | rfl
  · have hne : d ≠ '-' := fun heq => by simp [heq] at hd
    rw [List.nil_append, List.head?_cons, if_neg (by simpa using hne)] at h
    exact ⟨p, h⟩
  · rw [List.singleton_append, List.head?_cons, if_pos rfl, bind_reader_eq_ok_iff] at h
    obtain ⟨_, c₂, hpass, h⟩ := h
    obtain ⟨-, rfl⟩ := Prod.mk.inj (Except.ok.inj hpass)
    exact ⟨_, h⟩

/-- **The text of a double is read as a double**, if it is read at all. -/
theorem eq_double_of_number_decimalText {x : Float} {rest : List Char} (hrest : EndsNumber rest)
    {p : Position} {j : Json} {c : Cursor}
    (h : number ⟨decimalText x ++ rest, p⟩ = .ok (j, c)) : ∃ y, j = .double y := by
  obtain ⟨sign, whole, fraction, exponent, heq, hsign, hmagnitude, hdouble⟩ :=
    exists_decimalText_eq x
  obtain ⟨d, ds, hwhole, -⟩ := hmagnitude.whole_eq
  have hd : d.isDigit := hmagnitude.isDigit d (hwhole ▸ List.mem_cons_self)
  have htext : decimalText x ++ rest = sign ++ d :: (ds ++ (fraction ++ (exponent ++ rest))) := by
    simp [heq, hwhole]
  rw [htext] at h
  obtain ⟨q, hq⟩ := number_eq_ok hsign hd h
  rw [← List.cons_append, ← hwhole] at hq
  exact hmagnitude.eq_double_of_unsignedNumber hdouble hrest hq

/-- Digits that are all absorbed are those of a number that fits 64 bits. -/
theorem absorb_eq_of_snd_eq_nil {significand : Nat} {ds : List Char}
    (hsignificand : significand < UInt64.size) (h : (absorb significand ds).2 = []) :
    (absorb significand ds).1 = Nat.ofDigitChars 10 ds significand ∧
      Nat.ofDigitChars 10 ds significand < UInt64.size := by
  induction ds generalizing significand with
  | nil => exact ⟨by simp [absorb], by simpa using hsignificand⟩
  | cons d ds ih =>
    simp only [absorb, Nat.ofDigitChars_cons] at h ⊢
    split at h
    · next hlt =>
      rw [if_pos hlt]
      exact ih hlt h
    · cases h

/-- **The text of an integer that fits no word is read as a double**, if it is read at all. -/
theorem eq_double_of_number_integerText {i : Int} (hi : ¬ InWordRange i) {rest : List Char}
    (hrest : EndsNumber rest) {p : Position} {j : Json} {c : Cursor}
    (h : number ⟨integerText i ++ rest, p⟩ = .ok (j, c)) : ∃ y, j = .double y := by
  obtain ⟨d, ds, hcons, hd, -⟩ := toDigits_eq_cons i.natAbs
  obtain ⟨sign, htext, hsign, hnegative⟩ : ∃ sign,
      integerText i ++ rest = sign ++ d :: (ds ++ rest) ∧ (sign = [] ∨ sign = ['-']) ∧
        (sign = ['-'] ↔ i < 0) := by
    rw [integerText, hcons]
    split
    · next hneg => exact ⟨['-'], rfl, .inr rfl, by simpa using hneg⟩
    · next hneg => exact ⟨[], rfl, .inl rfl, by simpa using hneg⟩
  rw [htext] at h
  obtain ⟨q, hq⟩ := number_eq_ok hsign hd h
  rw [← List.cons_append, ← hcons] at hq
  rcases eq_double_or_of_unsignedNumber hq with hj | ⟨whole, c₁, c₂, hwhole, -, -, hleft, hj⟩
  · exact hj
  · obtain ⟨r, hr⟩ := reads_wholePart i.natAbs (fun c hc => (hrest c hc).1) q
    obtain ⟨rfl, -⟩ := Prod.mk.inj (Except.ok.inj (hr.symm.trans hwhole))
    obtain ⟨hfirst, hlt⟩ := absorb_eq_of_snd_eq_nil (by decide) hleft
    rw [Nat.ofDigitChars_ten_toDigits] at hfirst hlt
    -- a negative integer that fits no word has a magnitude beyond the least word
    simp only [InWordRange, UInt64.size] at hi hlt
    by_cases hneg : i < 0
    · have hrange : (i.natAbs = 0 || UInt64.size / 2 < i.natAbs) = true := by
        simp only [UInt64.size, Bool.or_eq_true, decide_eq_true_eq]
        omega
      rw [hfirst, decide_eq_true (hnegative.2 hneg), signedInteger, if_pos rfl, if_pos hrange] at hj
      exact ⟨_, hj⟩
    · omega

end Json

end CopyTrial
