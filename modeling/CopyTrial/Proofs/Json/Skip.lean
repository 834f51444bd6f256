import CopyTrial.Json.Skip
import CopyTrial.Proofs.Json.RoundTrip

/-!
# Written values are passed over

Whatever document is written, doubles and deep nesting included, its text is passed over as one
value, up to what follows it.

## Main definitions

* `Json.goOn` — what is done in the containers that are still open.
* `Json.Skips`, `Json.SkipsIn` — so many rounds pass over the characters of a value, or over what is
  left in a container.

## Main results

* `Json.reads_skipNumber`, `Json.reads_skipText` — numbers and texts are passed over.
* `Json.reads_skipValue` — so is every document.

## Design

A round passes the start of a value and all that ends with it, so where it stops depends on what
follows the value. A lemma on a value therefore takes what is done after the value as given, and
says what is done from its start.
-/

set_option autoImplicit false

namespace CopyTrial.Json

/-! ## Texts and numbers -/

/-- Escaped characters are passed up to the closing quote. -/
theorem reads_skipChars {cs : List Char} {fuel : Nat} (hfuel : cs.length < fuel)
    (rest : List Char) : Reads (skipChars fuel) (cs.flatMap escape ++ '"' :: rest) rest () := by
  induction cs generalizing fuel with
  | nil =>
    obtain ⟨fuel, rfl⟩ := Nat.exists_eq_succ_of_ne_zero (Nat.ne_of_gt hfuel)
    unfold skipChars
    exact (reads_peek _).bind (reads_advance '"' rest)
  | cons c cs ih =>
    simp only [List.length_cons] at hfuel
    obtain ⟨fuel, rfl⟩ : ∃ n, fuel = n + 1 := ⟨fuel - 1, by omega⟩
    have htail : Reads (skipChars fuel) (cs.flatMap escape ++ '"' :: rest) rest () :=
      ih (by omega)
    unfold skipChars
    refine (reads_peek _).bind ?_
    rw [List.flatMap_cons, List.append_assoc]
    rcases escape_shape c with ⟨hescape, hquote, hbackslash, hvisible⟩ |
      ⟨letter, hescape, hletter, hu⟩ | ⟨hescape, hcontrol⟩
    · have hcontrol : ¬ c.toNat < 0x20 := Nat.not_lt.2 hvisible
      simp only [hescape, List.cons_append, List.nil_append, List.head?_cons, hquote, hbackslash,
        hcontrol, if_false]
      exact (reads_advance c _).bind htail
    · simp only [hescape, List.cons_append, List.nil_append, List.head?_cons, Char.reduceEq,
        if_true, if_false]
      refine (reads_advance '\\' _).bind ((reads_peek _).bind ?_)
      simp only [List.head?_cons, hu, hletter, Option.isSome_some, if_true, if_false]
      exact (reads_advance letter _).bind htail
    · simp only [hescape, List.cons_append, List.nil_append, List.head?_cons, Char.reduceEq,
        if_true, if_false]
      refine (reads_advance '\\' _).bind ((reads_peek _).bind ?_)
      simp only [List.head?_cons, if_true]
      exact (reads_advance 'u' _).bind ((reads_hexQuad hcontrol _).bind htail)

/-- A quoted text is passed over, after its opening quote. -/
theorem reads_skipText (s : String) (rest : List Char) :
    Reads skipText (s.toList.flatMap escape ++ '"' :: rest) rest () := by
  intro p
  have hfuel : s.toList.length < (s.toList.flatMap escape ++ '"' :: rest).length + 1 := by
    have := length_le_flatMap_escape s.toList
    simp only [List.length_append]
    omega
  exact reads_skipChars hfuel rest p

namespace IsMagnitude

variable {whole fraction exponent rest : List Char}

/-- The exponent of a number is passed over. -/
theorem reads_skipExponent (h : IsMagnitude whole fraction exponent) (hrest : EndsNumber rest) :
    Reads skipExponent (exponent ++ rest) rest () := by
  unfold skipExponent
  refine (reads_peek _).bind ?_
  rcases h.exponent_eq with rfl | ⟨sign, ds, rfl, hsign, hne, hdigits⟩
  · have hlower : rest.head? ≠ some 'e' := fun hc => (hrest _ hc).2.2.1 rfl
    have hupper : rest.head? ≠ some 'E' := fun hc => (hrest _ hc).2.2.2 rfl
    simp only [List.nil_append, hlower, hupper, decide_false, Bool.or_self, Bool.false_eq_true,
      if_false]
    exact Reads.pure () rest
  · have hempty : ds.isEmpty = false := by simpa using hne
    have hend : Reads (do
        let ds ← digits
        if ds.isEmpty then failAhead .badNumber) (ds ++ rest) rest () := by
      refine (reads_digits hdigits fun c hc => (hrest c hc).1).bind ?_
      rw [hempty]
      exact Reads.pure () rest
    have hmark : (decide (some sign = some '+') || decide (some sign = some '-')) = true := by
      rcases hsign with rfl | rfl <;> decide
    rw [List.cons_append, List.head?_cons, if_pos (by decide)]
    refine (reads_advance 'e' _).bind ((reads_peek _).bind ?_)
    rw [List.cons_append, List.head?_cons, if_pos hmark]
    exact (reads_advance sign _).bind hend

/-- The fraction and the exponent of a number are passed over. -/
theorem reads_skipFraction (h : IsMagnitude whole fraction exponent) (hrest : EndsNumber rest) :
    Reads skipFraction (fraction ++ (exponent ++ rest)) rest () := by
  have hexponent := h.reads_skipExponent hrest
  unfold skipFraction
  refine (reads_peek _).bind ?_
  rcases h.fraction_eq with rfl | ⟨ds, rfl, hne, hdigits⟩
  · have hpoint : ([] ++ (exponent ++ rest)).head? ≠ some '.' := by
      rcases h.exponent_eq with rfl | ⟨sign, ds, rfl, -⟩
      · exact fun hc => (hrest _ hc).2.1 rfl
      · simp
    rw [if_neg hpoint]
    exact hexponent
  · have hempty : ds.isEmpty = false := by simpa using hne
    rw [List.cons_append, List.head?_cons, if_pos rfl]
    refine (reads_advance '.' _).bind ?_
    refine (reads_digits hdigits (h.not_isDigit_exponent hrest)).bind ?_
    rw [hempty]
    exact hexponent

/-- **A number is passed over**, after its sign. -/
theorem reads_skipNumber (h : IsMagnitude whole fraction exponent) (hrest : EndsNumber rest) :
    Reads skipNumber (whole ++ (fraction ++ (exponent ++ rest))) rest () := by
  have hfraction := h.reads_skipFraction hrest
  have hnodigit := h.not_isDigit_fraction hrest
  have hdigits := h.isDigit
  obtain ⟨c, ds, rfl, hzero⟩ := h.whole_eq
  have hc : c.isDigit := hdigits c List.mem_cons_self
  unfold skipNumber
  refine (reads_peek _).bind ?_
  simp only [List.cons_append, List.head?_cons]
  by_cases h0 : c = '0'
  · obtain rfl := hzero h0
    simp only [h0, if_true, List.nil_append]
    refine (reads_advance '0' _).bind ((reads_peek _).bind ?_)
    cases hhead : (fraction ++ (exponent ++ rest)).head? with
    | none => exact hfraction
    | some d =>
      simp only [hnodigit d hhead]
      exact hfraction
  · simp only [h0, hc, if_true, if_false]
    exact (reads_digits hdigits hnodigit).bind hfraction

end IsMagnitude

/-! ## Rounds -/

/-- What is done in the containers that are still open after a round. -/
def goOn (fuel : Nat) : List Bracket → Reader Unit
  | [] => pure ()
  | b :: outer => skipRounds fuel (b :: outer)

/-- A round is followed by what is done in the containers that it leaves open. -/
theorem skipRounds_succ (fuel : Nat) (outer : List Bracket) :
    skipRounds (fuel + 1) outer = skipRound outer >>= goOn fuel := by
  rw [skipRounds]
  refine congrArg _ (funext fun inside => ?_)
  cases inside <;> rfl

section

variable {outer inside : List Bracket} {ws rest between : List Char}

/-- A number is passed over in a round, with all that ends after it. -/
theorem reads_skipRound_number (hws : ∀ c ∈ ws, isBlank c) {sign whole fraction exponent : List Char}
    (hsign : sign = [] ∨ sign = ['-']) (h : IsMagnitude whole fraction exponent)
    (hrest : EndsNumber rest) (hends : Reads (skipEnds outer) rest between inside) :
    Reads (skipRound outer) (ws ++ (sign ++ (whole ++ (fraction ++ (exponent ++ rest))))) between
      inside := by
  have hnumber := h.reads_skipNumber hrest
  obtain ⟨d, ds, hwhole, -⟩ := h.whole_eq
  have hd : d.isDigit := h.isDigit d (hwhole ▸ List.mem_cons_self)
  obtain ⟨hblank, -, harray, hobject, hnull, htrue, hfalse, htext⟩ := isDigit_ne hd
  have hminus : d ≠ '-' := fun heq => by simp [heq] at hd
  unfold skipRound
  rcases hsign with rfl | rfl
  · rw [hwhole, List.cons_append] at hnumber ⊢
    refine (reads_blanks_append_cons hws hblank _).bind ((reads_peek _).bind ?_)
    simp only [List.head?_cons, harray, hobject, hnull, htrue, hfalse, htext, hminus, hd, if_true,
      if_false]
    exact hnumber.bind hends
  · refine (reads_blanks_append_cons hws (by decide) _).bind ((reads_peek _).bind ?_)
    simp only [List.head?_cons, Char.reduceEq, if_true, if_false]
    exact (reads_advance '-' _).bind (hnumber.bind hends)

/-- A scalar is passed over in a round, with all that ends after it. -/
theorem reads_skipRound_scalar (hws : ∀ c ∈ ws, isBlank c) {j : Json} (hj : IsScalar j)
    (layout : Layout) (level : Nat) (hrest : EndsNumber rest)
    (hends : Reads (skipEnds outer) rest between inside) :
    Reads (skipRound outer) (ws ++ (render layout level j ++ rest)) between inside := by
  cases j with
  | null =>
    unfold skipRound
    refine (reads_blanks_append_cons hws (by decide) _).bind ((reads_peek _).bind ?_)
    exact (reads_advance 'n' _).bind ((reads_word ['u', 'l', 'l'] rest).bind hends)
  | boolean b =>
    unfold skipRound
    cases b with
    | true =>
      refine (reads_blanks_append_cons hws (by decide) _).bind ((reads_peek _).bind ?_)
      exact (reads_advance 't' _).bind ((reads_word ['r', 'u', 'e'] rest).bind hends)
    | false =>
      refine (reads_blanks_append_cons hws (by decide) _).bind ((reads_peek _).bind ?_)
      exact (reads_advance 'f' _).bind ((reads_word ['a', 'l', 's', 'e'] rest).bind hends)
  | integer i =>
    have hmagnitude := isMagnitude_toDigits i.natAbs
    rw [render, integerText]
    split
    · exact reads_skipRound_number hws (.inr rfl) hmagnitude hrest hends
    · exact reads_skipRound_number hws (.inl rfl) hmagnitude hrest hends
  | double x =>
    obtain ⟨sign, whole, fraction, exponent, heq, hsign, hmagnitude, -⟩ := exists_decimalText_eq x
    rw [render, heq]
    simp only [List.append_assoc]
    exact reads_skipRound_number hws hsign hmagnitude hrest hends
  | text s =>
    unfold skipRound
    rw [render, quote, List.cons_append, List.append_assoc]
    refine (reads_blanks_append_cons hws (by decide) _).bind ((reads_peek _).bind ?_)
    exact (reads_advance '"' _).bind ((reads_skipText s rest).bind hends)
  | array js => exact hj.elim
  | object ms => exact hj.elim

end

/-! ## Containers -/

section

variable {outer inside : List Bracket} {ws rest between : List Char}

/-- The end of a container is passed, and all that ends with it. -/
theorem reads_skipEnds_close (b : Bracket) (hws : ∀ c ∈ ws, isBlank c)
    (hends : Reads (skipEnds outer) rest between inside) :
    Reads (skipEnds (b :: outer)) (ws ++ b.close :: rest) between inside := by
  unfold skipEnds
  cases b <;>
    exact (reads_blanks_append_cons hws (by decide) _).bind ((reads_peek _).bind
      ((reads_advance _ _).bind hends))

/-- The name of a member is passed with its colon. -/
theorem reads_skipName (hws : ∀ c ∈ ws, isBlank c) (name : String) (rest : List Char) :
    Reads (skipName .curly) (ws ++ (quote name ++ ':' :: rest)) rest () := by
  rw [quote, List.cons_append, List.append_assoc]
  refine (reads_blanks_append_cons hws (by decide) _).bind ((reads_peek _).bind ?_)
  exact (reads_advance '"' _).bind ((reads_skipText name _).bind (reads_colon rest))

/-- A comma in a container is passed, with the name that follows it in an object. -/
theorem reads_skipEnds_comma (b : Bracket) (outer : List Bracket) {before after : List Char}
    (hname : Reads (skipName b) before after ()) :
    Reads (skipEnds (b :: outer)) (',' :: before) after (b :: outer) := by
  unfold skipEnds
  refine (reads_blanks_cons _ (by decide)).bind ((reads_peek _).bind ?_)
  exact (reads_advance ',' _).bind (hname.bind (Reads.pure _ after))

/-- An empty container is opened and ended. -/
theorem reads_skipOpening_close (b : Bracket) (c : Char)
    (hends : Reads (skipEnds outer) rest between inside) :
    Reads (skipOpening b outer) (c :: b.close :: rest) between inside := by
  unfold skipOpening
  refine (reads_advance c _).bind ?_
  cases b <;>
    exact (reads_blanks_cons _ (by decide)).bind ((reads_peek _).bind
      ((reads_advance _ _).bind hends))

end

/-- So many rounds pass over the characters of a value, whatever is done after it. -/
def Skips (n : Nat) (cs : List Char) : Prop :=
  ∀ (outer inside : List Bracket) (ws rest between after : List Char) (fuel : Nat),
    (∀ c ∈ ws, isBlank c) → EndsNumber rest → Reads (skipEnds outer) rest between inside →
      Reads (goOn fuel inside) between after () →
        Reads (skipRounds (fuel + n) outer) (ws ++ (cs ++ rest)) after ()

/-- So many rounds pass over the characters that are left in a container, and its end. -/
def SkipsIn (b : Bracket) (n : Nat) (cs : List Char) : Prop :=
  ∀ (outer inside : List Bracket) (ws rest between after : List Char) (fuel : Nat),
    (∀ c ∈ ws, isBlank c) → Reads (skipEnds outer) rest between inside →
      Reads (goOn fuel inside) between after () →
        Reads (goOn (fuel + n) (b :: outer)) (ws ++ (cs ++ rest)) after ()

/-- A value is passed over, in no more rounds than it has characters. -/
def Skippable (cs : List Char) : Prop := ∃ n ≤ cs.length, Skips n cs

/-- What is left in a container is passed over, in no more rounds than it has characters. -/
def SkippableIn (b : Bracket) (cs : List Char) : Prop := ∃ n ≤ cs.length, SkipsIn b n cs

/-- What a round passes, with all that ends after it, is passed over. -/
theorem skippable_of_skipRound {cs : List Char} (hne : cs ≠ [])
    (h : ∀ (outer inside : List Bracket) (ws rest between : List Char), (∀ c ∈ ws, isBlank c) →
      EndsNumber rest → Reads (skipEnds outer) rest between inside →
        Reads (skipRound outer) (ws ++ (cs ++ rest)) between inside) : Skippable cs := by
  refine ⟨1, List.length_pos_iff.2 hne, ?_⟩
  intro outer inside ws rest between after fuel hws hrest hends hgo
  rw [skipRounds_succ]
  exact (h outer inside ws rest between hws hrest hends).bind hgo

/-- A container is passed over if a round opens it and what is left in it is passed over. -/
theorem SkippableIn.skippable {b : Bracket} {inner cs ws' : List Char} (h : SkippableIn b inner)
    (hlength : inner.length < cs.length) (hws' : ∀ c ∈ ws', isBlank c)
    (hopen : ∀ (outer : List Bracket) (ws rest : List Char), (∀ c ∈ ws, isBlank c) →
      Reads (skipRound outer) (ws ++ (cs ++ rest)) (ws' ++ (inner ++ rest)) (b :: outer)) :
    Skippable cs := by
  obtain ⟨n, hn, hskips⟩ := h
  refine ⟨n + 1, Nat.le_trans (Nat.succ_le_succ hn) hlength, ?_⟩
  intro outer inside ws rest between after fuel hws _ hends hgo
  rw [← Nat.add_assoc, skipRounds_succ]
  exact (hopen outer ws rest hws).bind
    (hskips outer inside ws' rest between after fuel hws' hends hgo)

section

variable (layout : Layout) (level : Nat)

/-- A scalar is passed over. -/
theorem skippable_scalar {j : Json} (hj : IsScalar j) : Skippable (render layout level j) := by
  obtain ⟨c, cs, hcons, -⟩ := exists_render_eq_cons layout level j
  refine skippable_of_skipRound (by rw [hcons]; exact List.cons_ne_nil c cs) ?_
  exact fun outer inside ws rest between hws => reads_skipRound_scalar hws hj layout level

/-! ### Arrays -/

/-- A round opens an array and stops at its first element. -/
theorem reads_skipRound_array (outer : List Bracket) {ws : List Char} (hws : ∀ c ∈ ws, isBlank c)
    (j : Json) (js : List Json) (rest : List Char) :
    Reads (skipRound outer) (ws ++ (render layout level (.array (j :: js)) ++ rest))
      (render layout (level + 1) j ++ (renderMoreElements layout level js ++ rest))
      (.square :: outer) := by
  obtain ⟨c, cs, hcons, hc⟩ := exists_render_eq_cons layout (level + 1) j
  rw [render, renderElements]
  simp only [List.cons_append, List.append_assoc, hcons]
  unfold skipRound
  refine (reads_blanks_append_cons hws (by decide) _).bind ((reads_peek _).bind ?_)
  refine (reads_advance '[' _).bind ?_
  refine (reads_blanks_append_cons Layout.isBlank_of_mem_gap hc.not_blank _).bind
    ((reads_peek _).bind ?_)
  simp only [List.head?_cons, Bracket.close, hc.ne_close, if_false]
  exact (Reads.pure () _).bind (Reads.pure _ _)

/-- Elements are passed over, up to and with the end of the list, if each of them is. -/
theorem skippableIn_elements {j : Json} {js : List Json}
    (h : ∀ x ∈ j :: js, Skippable (render layout (level + 1) x)) :
    SkippableIn .square (render layout (level + 1) j ++ renderMoreElements layout level js) := by
  induction js generalizing j with
  | nil =>
    obtain ⟨n, hn, hskips⟩ := h j List.mem_cons_self
    refine ⟨n, by rw [List.length_append]; omega, ?_⟩
    intro outer inside ws rest between after fuel hws hends hgo
    rw [List.append_assoc]
    refine hskips _ _ _ _ _ _ _ hws (endsNumber_moreElements layout level [] rest) ?_ hgo
    rw [renderMoreElements, List.append_assoc]
    exact reads_skipEnds_close .square Layout.isBlank_of_mem_gap hends
  | cons j' js ih =>
    obtain ⟨hj, hjs⟩ := List.forall_mem_cons.1 h
    obtain ⟨n, hn, hskips⟩ := hj
    obtain ⟨m, hm, hmore⟩ := ih hjs
    refine ⟨m + n, ?_, ?_⟩
    · rw [renderMoreElements]
      simp only [List.length_append, List.length_cons] at hm ⊢
      omega
    · intro outer inside ws rest between after fuel hws hends hgo
      have hgap : ∀ c ∈ layout.gap (level + 1), isBlank c := Layout.isBlank_of_mem_gap
      rw [List.append_assoc, ← Nat.add_assoc]
      refine hskips _ _ _ _ _ _ _ hws (endsNumber_moreElements layout level (j' :: js) rest) ?_
        (hmore _ _ _ _ _ _ _ hgap hends hgo)
      rw [renderMoreElements, List.cons_append, List.append_assoc]
      exact reads_skipEnds_comma .square outer (Reads.pure () _)

/-- An array is passed over if its elements are. -/
theorem skippable_array {js : List Json} (h : ∀ j ∈ js, Skippable (render layout (level + 1) j)) :
    Skippable (render layout level (.array js)) := by
  cases js with
  | nil =>
    refine skippable_of_skipRound (List.cons_ne_nil _ _) ?_
    intro outer inside ws rest between hws _ hends
    unfold skipRound
    refine (reads_blanks_append_cons hws (by decide) _).bind ((reads_peek _).bind ?_)
    exact reads_skipOpening_close .square '[' hends
  | cons j js =>
    refine (skippableIn_elements layout level h).skippable ?_ (List.forall_mem_nil _)
      fun outer ws rest hws => ?_
    · rw [render, renderElements]
      simp only [List.length_append, List.length_cons]
      omega
    · rw [List.nil_append, List.append_assoc]
      exact reads_skipRound_array layout level outer hws j js rest

/-! ### Objects -/

/-- A round opens an object and stops after the first name and its colon. -/
theorem reads_skipRound_object (outer : List Bracket) {ws : List Char} (hws : ∀ c ∈ ws, isBlank c)
    (m : String × Json) (ms : List (String × Json)) (rest : List Char) :
    Reads (skipRound outer) (ws ++ (render layout level (.object (m :: ms)) ++ rest))
      (layout.afterColon ++ (render layout (level + 1) m.2 ++
        (renderMoreMembers layout level ms ++ rest))) (.curly :: outer) := by
  have hname := reads_skipName (List.forall_mem_nil _) m.1 (layout.afterColon ++
    (render layout (level + 1) m.2 ++ (renderMoreMembers layout level ms ++ rest)))
  rw [List.nil_append, quote, List.cons_append] at hname
  rw [render, renderMembers, quote]
  simp only [List.cons_append, List.append_assoc] at hname ⊢
  unfold skipRound
  refine (reads_blanks_append_cons hws (by decide) _).bind ((reads_peek _).bind ?_)
  refine (reads_advance '{' _).bind ?_
  refine (reads_blanks_append_cons Layout.isBlank_of_mem_gap (by decide) _).bind
    ((reads_peek _).bind ?_)
  exact hname.bind (Reads.pure _ _)

/-- The values of members are passed over, up to and with the end of the object, if each of them
is. -/
theorem skippableIn_members {j : Json} {ms : List (String × Json)}
    (hj : Skippable (render layout (level + 1) j))
    (h : ∀ m ∈ ms, Skippable (render layout (level + 1) m.2)) :
    SkippableIn .curly (render layout (level + 1) j ++ renderMoreMembers layout level ms) := by
  induction ms generalizing j with
  | nil =>
    obtain ⟨n, hn, hskips⟩ := hj
    refine ⟨n, by rw [List.length_append]; omega, ?_⟩
    intro outer inside ws rest between after fuel hws hends hgo
    rw [List.append_assoc]
    refine hskips _ _ _ _ _ _ _ hws (endsNumber_moreMembers layout level [] rest) ?_ hgo
    rw [renderMoreMembers, List.append_assoc]
    exact reads_skipEnds_close .curly Layout.isBlank_of_mem_gap hends
  | cons m ms ih =>
    obtain ⟨hm, hms⟩ := List.forall_mem_cons.1 h
    obtain ⟨n, hn, hskips⟩ := hj
    obtain ⟨k, hk, hmore⟩ := ih hm hms
    refine ⟨k + n, ?_, ?_⟩
    · rw [renderMoreMembers]
      simp only [List.length_append, List.length_cons] at hk ⊢
      omega
    · intro outer inside ws rest between after fuel hws hends hgo
      have hcolon : ∀ c ∈ layout.afterColon, isBlank c := Layout.isBlank_of_mem_afterColon
      rw [List.append_assoc, ← Nat.add_assoc]
      refine hskips _ _ _ _ _ _ _ hws (endsNumber_moreMembers layout level (m :: ms) rest) ?_
        (hmore _ _ _ _ _ _ _ hcolon hends hgo)
      rw [renderMoreMembers]
      simp only [List.cons_append, List.append_assoc]
      exact reads_skipEnds_comma .curly outer (reads_skipName Layout.isBlank_of_mem_gap m.1 _)

/-- An object is passed over if the values of its members are. -/
theorem skippable_object {ms : List (String × Json)}
    (h : ∀ m ∈ ms, Skippable (render layout (level + 1) m.2)) :
    Skippable (render layout level (.object ms)) := by
  cases ms with
  | nil =>
    refine skippable_of_skipRound (List.cons_ne_nil _ _) ?_
    intro outer inside ws rest between hws _ hends
    unfold skipRound
    refine (reads_blanks_append_cons hws (by decide) _).bind ((reads_peek _).bind ?_)
    exact reads_skipOpening_close .curly '{' hends
  | cons m ms =>
    obtain ⟨hm, hms⟩ := List.forall_mem_cons.1 h
    have hcolon : ∀ c ∈ layout.afterColon, isBlank c := Layout.isBlank_of_mem_afterColon
    refine (skippableIn_members layout level hm hms).skippable ?_ hcolon
      fun outer ws rest hws => ?_
    · rw [render, renderMembers]
      simp only [List.length_append, List.length_cons]
      omega
    · rw [List.append_assoc]
      exact reads_skipRound_object layout level outer hws m ms rest

end

/-! ## Documents -/

/-- Every document is passed over in no more rounds than it has characters.

**Proof sketch.** Induction on the depth of nesting. A scalar and an empty container take one round.
Any other container takes one round for its start, and those of what is in it. -/
theorem skippable_render (layout : Layout) (depth level : Nat) {j : Json}
    (hdepth : j.depth ≤ depth) : Skippable (render layout level j) := by
  induction depth generalizing level j with
  | zero =>
    refine skippable_scalar layout level ?_
    cases j with
    | array elements => exact absurd hdepth (Nat.not_succ_le_zero _)
    | object members => exact absurd hdepth (Nat.not_succ_le_zero _)
    | _ => trivial
  | succ depth ih =>
    cases j with
    | array js =>
      have hle := depthElements_le_iff.1 (Nat.le_of_succ_le_succ hdepth)
      exact skippable_array layout level fun j hj => ih (level + 1) (hle j hj)
    | object ms =>
      have hle := depthMembers_le_iff.1 (Nat.le_of_succ_le_succ hdepth)
      exact skippable_object layout level fun m hm => ih (level + 1) (hle m hm)
    | null => exact skippable_scalar layout level trivial
    | boolean b => exact skippable_scalar layout level trivial
    | integer i => exact skippable_scalar layout level trivial
    | double x => exact skippable_scalar layout level trivial
    | text s => exact skippable_scalar layout level trivial

/-- **Every written document is passed over**, whatever numbers it holds and however deep its
containers are nested. -/
theorem reads_skipValue (layout : Layout) (level : Nat) (j : Json) {ws : List Char}
    (hws : ∀ c ∈ ws, isBlank c) {rest : List Char} (hrest : EndsNumber rest) :
    Reads skipValue (ws ++ (render layout level j ++ rest)) rest () := by
  obtain ⟨n, hn, hskips⟩ := skippable_render layout j.depth level (Nat.le_refl _)
  intro p
  obtain ⟨fuel, hfuel⟩ : ∃ fuel, (ws ++ (render layout level j ++ rest)).length + 1 = fuel + n := by
    refine ⟨(ws ++ (render layout level j ++ rest)).length + 1 - n, ?_⟩
    simp only [List.length_append]
    omega
  rw [skipValue, hfuel]
  exact hskips [] [] ws rest rest rest fuel hws hrest (Reads.pure [] rest) (Reads.pure () rest) p

end CopyTrial.Json
