import CopyTrial.Text.Blank
import CopyTrial.Text.Lines

/-!
# Lines and pieces that were put together

Lines that were written one after the other, each with a line feed at its end, are found again.
Pieces with pairs of colons between them are found again as long as no colons of the pieces stand
beside those between them in such a way that another pair comes first.

## Main definitions

* `Text.HasPair` — two colons stand side by side.
* `Text.carryOver` — what the pieces after a pair are made of.

## Main results

* `Text.linesFrom_flatMap` — lines are found again.
* `Text.trimChars_eq_self` — characters with no blank at either end are left alone.
* `Text.trimChars_eq_nil_iff` — of characters that are all blank nothing is left.
* `Text.length_splitPairsFrom_append` — how many pieces there are around a pair of colons.
-/

set_option autoImplicit false

namespace CopyTrial.Text

/-! ## Lines -/

/-- Where there is no carriage return, none is dropped. -/
theorem dropReturn_of_not_mem {cs : List Char} (h : '\r' ∉ cs) : dropReturn cs = cs := by
  induction cs with
  | nil => rfl
  | cons c cs ih =>
    rw [List.mem_cons, not_or] at h
    rw [dropReturn, ih h.2]
    rintro rfl -
    exact h.1 rfl

/-- A line goes up to the first line feed. -/
theorem linesFrom_append (line : List Char) {cs : List Char} (h : '\n' ∉ cs)
    (rest : List Char) :
    linesFrom line (cs ++ '\n' :: rest) =
      dropReturn (line.reverse ++ cs) :: linesFrom [] rest := by
  induction cs generalizing line with
  | nil => rw [List.nil_append, linesFrom, if_pos rfl, List.append_nil]
  | cons c cs ih =>
    rw [List.mem_cons, not_or] at h
    rw [List.cons_append, linesFrom, if_neg (Ne.symm h.1), ih (c :: line) h.2,
      List.reverse_cons, List.append_assoc]
    rfl

/-- **Lines that end with line feeds are found again.** -/
theorem linesFrom_flatMap {lines : List (List Char)}
    (h : ∀ line ∈ lines, '\n' ∉ line ∧ '\r' ∉ line) :
    linesFrom [] (lines.flatMap (· ++ ['\n'])) = lines := by
  induction lines with
  | nil => rfl
  | cons line lines ih =>
    obtain ⟨hline, hlines⟩ := List.forall_mem_cons.1 h
    rw [List.flatMap_cons, List.append_assoc, List.singleton_append, linesFrom_append [] hline.1,
      ih hlines, List.reverse_nil, List.nil_append, dropReturn_of_not_mem hline.2]

/-- Up to the first line feed there is one piece between line feeds. -/
theorem splitOn_append_cons {line : List Char} (h : '\n' ∉ line) (rest : List Char) :
    (line ++ '\n' :: rest).splitOn '\n' = line :: rest.splitOn '\n' := by
  refine List.splitOnP_append_cons_of_forall_mem (fun c hc => ?_) '\n' rfl rest
  rw [beq_eq_false_iff_ne]
  rintro rfl
  exact h hc

/-- There is one more piece than there are characters at which is split. -/
theorem length_splitOn (cs : List Char) (c : Char) : (cs.splitOn c).length = cs.count c + 1 := by
  induction cs with
  | nil => rfl
  | cons d cs ih =>
    rw [List.splitOn, List.splitOnP_cons_eq_if_modifyHead, ← List.splitOn, List.count_cons]
    split
    · rw [List.length_cons, ih]
    · rw [List.length_modifyHead, ih, Nat.add_zero]

/-! ## Blanks -/

/-- A character at the end that is no blank stays. -/
theorem trimEnd_append_singleton (cs : List Char) {c : Char} (hc : isBlank c = false) :
    trimEnd (cs ++ [c]) = cs ++ [c] := by
  induction cs with
  | nil => simp [trimEnd, hc]
  | cons d cs ih =>
    rw [List.cons_append, trimEnd, ih]
    cases cs <;> rfl

/-- **Characters with no blank at either end are left alone.** -/
theorem trimChars_eq_self {c d : Char} (cs : List Char) (hc : isBlank c = false)
    (hd : isBlank d = false) : trimChars (c :: (cs ++ [d])) = c :: (cs ++ [d]) := by
  rw [trimChars, List.dropWhile_cons_of_neg (by simp [hc]), ← List.cons_append,
    trimEnd_append_singleton _ hd]

/-- A carriage return at the end is a blank there. -/
theorem trimEnd_dropReturn (cs : List Char) : trimEnd (dropReturn cs) = trimEnd cs := by
  fun_induction dropReturn cs with
  | case1 => rfl
  | case2 => rfl
  | case3 c rest _ ih => rw [trimEnd, ih, trimEnd]

/-- Blanks in front are passed over whether or not a carriage return at the end is dropped. -/
theorem dropWhile_dropReturn (cs : List Char) :
    (dropReturn cs).dropWhile isBlank = dropReturn (cs.dropWhile isBlank) := by
  fun_induction dropReturn cs with
  | case1 => rfl
  | case2 => rfl
  | case3 c rest hne ih =>
    cases hc : isBlank c with
    | true => rw [List.dropWhile_cons_of_pos hc, List.dropWhile_cons_of_pos hc, ih]
    | false =>
      have hc' : ¬ isBlank c = true := by simp [hc]
      rw [List.dropWhile_cons_of_neg hc', List.dropWhile_cons_of_neg hc', dropReturn]
      exact hne

/-- A carriage return before the end of a line does not matter to what stands on the line. -/
theorem trimChars_dropReturn (cs : List Char) : trimChars (dropReturn cs) = trimChars cs := by
  rw [trimChars, dropWhile_dropReturn, trimEnd_dropReturn, trimChars]

/-- Nothing is left of characters without the blanks at their end if all of them are blank. -/
theorem trimEnd_eq_nil_iff (cs : List Char) : trimEnd cs = [] ↔ ∀ c ∈ cs, isBlank c = true := by
  induction cs with
  | nil => simp [trimEnd]
  | cons c cs ih =>
    rw [List.forall_mem_cons, ← ih, trimEnd]
    cases htrim : trimEnd cs with
    | nil => cases hc : isBlank c <;> simp
    | cons d ds => simp

/-- **Nothing is left of characters exactly if all of them are blank.** -/
theorem trimChars_eq_nil_iff (cs : List Char) :
    trimChars cs = [] ↔ ∀ c ∈ cs, isBlank c = true := by
  rw [trimChars, trimEnd_eq_nil_iff]
  constructor
  · intro h c hc
    rw [← List.takeWhile_append_dropWhile (p := isBlank) (l := cs), List.mem_append] at hc
    rcases hc with hc | hc
    · exact List.all_eq_true.1 List.all_takeWhile c hc
    · exact h c hc
  · exact fun h c hc => h c ((List.dropWhile_sublist isBlank).subset hc)

/-! ## Pieces -/

/-- Two colons stand side by side. -/
def HasPair (cs : List Char) : Prop := [':', ':'] <:+: cs

/-- Two colons stand at the start or further on. -/
theorem hasPair_cons_iff (c : Char) (cs : List Char) :
    HasPair (c :: cs) ↔ (c = ':' ∧ cs.head? = some ':') ∨ HasPair cs := by
  rw [HasPair, List.infix_cons_iff, List.cons_prefix_cons, HasPair]
  cases cs with
  | nil => simp
  | cons d cs => simp [eq_comm]

/-- Where no colon stands, no pair does. -/
theorem not_hasPair_of_not_mem {cs : List Char} (h : ':' ∉ cs) : ¬ HasPair cs :=
  fun hpair => h (hpair.subset List.mem_cons_self)

/-- A pair ends a piece. -/
theorem splitPairsFrom_pair (piece rest : List Char) :
    splitPairsFrom piece (':' :: ':' :: rest) = piece.reverse :: splitPairsFrom [] rest := by
  rw [splitPairsFrom]

/-- A character at which no pair starts belongs to the piece. -/
theorem splitPairsFrom_cons (piece : List Char) {c : Char} {cs : List Char}
    (h : ¬ (c = ':' ∧ cs.head? = some ':')) :
    splitPairsFrom piece (c :: cs) = splitPairsFrom (c :: piece) cs := by
  rw [splitPairsFrom]
  rintro rest rfl rfl
  exact h ⟨rfl, rfl⟩

/-- What has been passed of a piece does not matter for the number of pieces. -/
theorem length_splitPairsFrom (piece cs : List Char) :
    (splitPairsFrom piece cs).length = (splitPairsFrom [] cs).length := by
  induction cs generalizing piece with
  | nil => rfl
  | cons c cs ih =>
    by_cases h : c = ':' ∧ cs.head? = some ':'
    · obtain ⟨rfl, hhead⟩ := h
      obtain ⟨rest, rfl⟩ := List.head?_eq_some_iff.1 hhead
      rw [splitPairsFrom_pair, splitPairsFrom_pair, List.length_cons, List.length_cons]
    · rw [splitPairsFrom_cons piece h, splitPairsFrom_cons [] h, ih (c :: piece), ih [c]]

/-- Where there is no pair, there is one piece. -/
theorem length_splitPairsFrom_of_not_hasPair (piece : List Char) {cs : List Char}
    (h : ¬ HasPair cs) : (splitPairsFrom piece cs).length = 1 := by
  induction cs generalizing piece with
  | nil => rfl
  | cons c cs ih =>
    rw [hasPair_cons_iff, not_or] at h
    rw [splitPairsFrom_cons piece h.1, ih (c :: piece) h.2]

/-- What the pieces after a pair are made of: a colon that stood before the pair was taken for its
first one, so that its second one is left over. -/
def carryOver (before after : List Char) : List Char :=
  if before.getLast? = some ':' then ':' :: after else after

/-- **There is one piece up to a pair, and there are those in what is carried over.**

**Proof sketch.** Induction on what stands before the pair. No pair starts there, so each
character belongs to the piece, unless the last one is a colon, which makes a pair with the next
one. -/
theorem length_splitPairsFrom_append {before : List Char} (h : ¬ HasPair before)
    (after : List Char) :
    (splitPairsFrom [] (before ++ ':' :: ':' :: after)).length =
      (splitPairsFrom [] (carryOver before after)).length + 1 := by
  induction before with
  | nil =>
    rw [List.nil_append, splitPairsFrom_pair, List.length_cons, carryOver, if_neg (by simp)]
  | cons c before ih =>
    rw [hasPair_cons_iff, not_or] at h
    cases before with
    | nil =>
      rw [List.cons_append, List.nil_append]
      by_cases hc : c = ':'
      · subst hc
        have hlast : [':'].getLast? = some ':' := rfl
        rw [splitPairsFrom_pair, List.length_cons, carryOver, if_pos hlast]
      · have hlast : [c].getLast? ≠ some ':' := fun heq => hc (Option.some.inj heq)
        rw [splitPairsFrom_cons [] fun hpair => hc hpair.1, splitPairsFrom_pair,
          List.length_cons, carryOver, if_neg hlast]
    | cons d before =>
      have hlast : carryOver (c :: d :: before) after = carryOver (d :: before) after := by
        rw [carryOver, carryOver, List.getLast?_cons_cons]
      have hstart : ¬ (c = ':' ∧ (d :: before ++ ':' :: ':' :: after).head? = some ':') := h.1
      rw [List.cons_append, splitPairsFrom_cons [] hstart, length_splitPairsFrom, ih h.2, hlast]

end CopyTrial.Text
