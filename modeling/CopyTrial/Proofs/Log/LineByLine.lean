import Mathlib.Data.List.Basic
import CopyTrial.Log.Validation
import CopyTrial.Proofs.Text.Lines

/-!
# Logs are checked line by line

A log is checked in pieces: what is found on a line depends on nothing but the line and its number,
and every line is numbered, also one that is blank. So a text that goes on after the end of a line
is checked like the two texts that it is made of, except that the lines of the second one are
numbered on.

Lines are told here by the line feeds between them alone. A carriage return before a line feed is
a blank on its line, and after a line feed at the end of a text stands one more line, which is
empty; neither makes a difference, since blanks around a line are dropped and blank lines skipped.

## Main definitions

* `physicalLines`, `physicalLine?` — what stands between the line feeds of a text.
* `violationsOn` — the violations on one line.
* `Violation.moved` — a violation with its line further down.
* `CheckedByLine` — the violations in a text are those of its lines, each for itself.

## Main results

* `validateText_eq` — a text is checked by checking its physical lines.
* `validateText_append` — a text that goes on after the end of a line.
* `validateText_compositional` — both, for all texts.
-/

set_option autoImplicit false

namespace CopyTrial

open Text

/-! ## Physical lines -/

/-- What stands between the line feeds of a text. -/
def physicalLines (text : String) : List (List Char) := text.toList.splitOn '\n'

/-- The physical line with a number, the first one having the number 1. -/
def physicalLine? (text : String) : Nat → Option (List Char)
  | 0 => none
  | index + 1 => (physicalLines text)[index]?

/-- What is checked of a numbered line: what stands between the blanks around it, unless all of it
is blank. -/
def contentOf (x : List Char × Nat) : Option (Nat × String) :=
  if x.1.all isBlank then none else some (x.2, String.ofList (trimChars x.1))

/-- The violations on a numbered line. A blank one has none. -/
def violationsOn (x : List Char × Nat) : List Violation :=
  if x.1.all isBlank then [] else lineViolations x.2 (String.ofList (trimChars x.1))

/-- Blanks around a line do not matter to what is checked of it. -/
theorem contentOf_congr {line line' : List Char} (h : trimChars line = trimChars line')
    (number : Nat) : contentOf (line, number) = contentOf (line', number) := by
  have hblank : line.all isBlank = line'.all isBlank := by
    rw [Bool.eq_iff_iff, List.all_eq_true, List.all_eq_true, ← trimChars_eq_nil_iff,
      ← trimChars_eq_nil_iff, h]
  simp only [contentOf, hblank, h]

/-- Lines have the same content as the physical lines of the same characters.

**Proof sketch.** Induction on the characters. At a line feed a line ends on both sides, here
without a carriage return that stood before the line feed. In the end there may be one more
physical line, which is empty. -/
theorem filterMap_linesFrom (cs : List Char) {line : List Char} (h : '\n' ∉ line) (number : Nat) :
    ((linesFrom line cs).zipIdx number).filterMap contentOf =
      (((line.reverse ++ cs).splitOn '\n').zipIdx number).filterMap contentOf := by
  induction cs generalizing line number with
  | nil =>
    rw [List.append_nil, List.splitOn_eq_singleton (by simpa using h), linesFrom]
    cases line with
    | nil => rfl
    | cons c line => rfl
  | cons c cs ih =>
    rw [linesFrom]
    split
    · next hc =>
      subst hc
      rw [splitOn_append_cons (by simpa using h),
        List.zipIdx_cons, List.zipIdx_cons, List.filterMap_cons, List.filterMap_cons,
        contentOf_congr (trimChars_dropReturn line.reverse), ih List.not_mem_nil]
      rfl
    · next hc =>
      rw [ih (by simp [h, Ne.symm hc]), List.reverse_cons, List.append_assoc,
        List.singleton_append]

/-- **The content lines of a text are those of its physical lines.** -/
theorem contentLines_eq (text : String) :
    contentLines text = ((physicalLines text).zipIdx 1).filterMap contentOf := by
  have hcontent : ∀ x : List Char × Nat,
      (if trim (String.ofList x.1) = "" then none else some (x.2, trim (String.ofList x.1))) =
        contentOf x := by
    intro x
    have hblank : trim (String.ofList x.1) = "" ↔ x.1.all isBlank = true := by
      rw [trim, String.toList_ofList, ← String.toList_inj, String.toList_ofList,
        String.toList_empty, trimChars_eq_nil_iff, List.all_eq_true]
    by_cases h : x.1.all isBlank = true
    · simp only [contentOf, h, hblank.2 h, if_true]
    · rw [contentOf, if_neg h, if_neg (mt hblank.1 h), trim, String.toList_ofList]
  have hlines := filterMap_linesFrom text.toList List.not_mem_nil 1
  rw [List.reverse_nil, List.nil_append] at hlines
  rw [contentLines, lines, List.map_map, List.zipIdx_map, List.filterMap_map, physicalLines,
    ← hlines]
  refine List.filterMap_congr fun x _ => ?_
  rw [Function.comp_apply, Prod.map, Function.comp_apply, id]
  exact hcontent x

/-- **A text is checked by checking its physical lines**: those that are not blank are counted, and
the violations are those on each of them, in order. -/
theorem validateText_eq (text : String) :
    validateText text =
      ((physicalLines text).countP fun line => line.any fun c => !isBlank c,
        ((physicalLines text).zipIdx 1).flatMap violationsOn) := by
  have hcount : ∀ x : List Char × Nat, (contentOf x).isSome = x.1.any fun c => !isBlank c := by
    intro x
    rw [contentOf, ← List.not_all_eq_any_not]
    cases x.1.all isBlank <;> rfl
  have hviolations : ∀ x : List Char × Nat,
      ((contentOf x).toList.flatMap fun y => lineViolations y.1 y.2) = violationsOn x := by
    intro x
    rw [contentOf, violationsOn]
    split <;> simp
  rw [validateText, contentLines_eq, Prod.mk.injEq]
  constructor
  · rw [List.length_filterMap_eq_countP]
    simp only [hcount]
    conv_rhs => rw [← List.zipIdx_map_fst 1 (physicalLines text), List.countP_map]
    rfl
  · rw [List.filterMap_eq_flatMap_toList, List.flatMap_assoc]
    simp only [hviolations]

/-! ## One line -/

/-- A violation is found on the line of which it has the number. -/
theorem line_of_mem_violationsOn {x : List Char × Nat} {v : Violation} (h : v ∈ violationsOn x) :
    v.line = x.2 := by
  rw [violationsOn] at h
  split at h
  · cases h
  · rw [lineViolations] at h
    split at h
    · cases h
    · obtain ⟨breach, -, rfl⟩ := List.mem_map.1 h
      rfl

/-- There are violations on no line but one that is not blank. -/
theorem exists_not_blank_of_mem_violationsOn {x : List Char × Nat} {v : Violation}
    (h : v ∈ violationsOn x) : ∃ c ∈ x.1, isBlank c = false := by
  rw [violationsOn] at h
  split at h
  · cases h
  · next hblank => simpa using hblank

/-- Of the violations on a line either all have a number or none has. -/
theorem filter_violationsOn (x : List Char × Nat) (number : Nat) :
    (violationsOn x).filter (fun v => v.line = number) =
      if x.2 = number then violationsOn x else [] := by
  split
  · next h =>
    exact List.filter_eq_self.2 fun v hv => decide_eq_true ((line_of_mem_violationsOn hv).trans h)
  · next h =>
    rw [List.filter_eq_nil_iff]
    intro v hv
    rw [line_of_mem_violationsOn hv, decide_eq_true_iff]
    exact h

/-! ## Numbered lines -/

section

variable (lines : List (List Char)) (first : Nat)

/-- The violations on lines that are numbered on have ascending numbers. -/
theorem pairwise_line_violationsOn :
    ((lines.zipIdx first).flatMap violationsOn).Pairwise fun v v' => v.line ≤ v'.line := by
  rw [List.pairwise_flatMap]
  constructor
  · intro x _
    refine List.pairwise_of_forall_mem_list fun v hv v' hv' => Nat.le_of_eq ?_
    rw [line_of_mem_violationsOn hv, line_of_mem_violationsOn hv']
  · have hnumbers : ((lines.zipIdx first).map Prod.snd).Pairwise (· < ·) := by
      rw [List.zipIdx_map_snd]
      exact List.pairwise_lt_range' 1
    refine (List.pairwise_map.1 hnumbers).imp fun hlt v hv v' hv' => ?_
    rw [line_of_mem_violationsOn hv, line_of_mem_violationsOn hv']
    exact Nat.le_of_lt hlt

/-- **The violations with the number of a line are those on it.**

**Proof sketch.** Induction on the lines: the violations on all lines but one have other
numbers. -/
theorem filter_flatMap_violationsOn (index : Nat) :
    ((lines.zipIdx first).flatMap violationsOn).filter (fun v => v.line = first + index) =
      lines[index]?.elim [] fun line => violationsOn (line, first + index) := by
  induction lines generalizing first index with
  | nil => rfl
  | cons line lines ih =>
    rw [List.zipIdx_cons, List.flatMap_cons, List.filter_append, filter_violationsOn]
    cases index with
    | zero =>
      have hlater : ∀ v ∈ (lines.zipIdx (first + 1)).flatMap violationsOn, ¬ v.line = first := by
        intro v hv
        obtain ⟨x, hx, hvx⟩ := List.mem_flatMap.1 hv
        have := List.le_snd_of_mem_zipIdx hx
        rw [line_of_mem_violationsOn hvx]
        omega
      have hnone : ((lines.zipIdx (first + 1)).flatMap violationsOn).filter
          (fun v => v.line = first) = [] := by
        rw [List.filter_eq_nil_iff]
        simpa using hlater
      rw [Nat.add_zero, if_pos rfl, hnone, List.append_nil]
      rfl
    | succ index =>
      have hnumber : first + (index + 1) = first + 1 + index := by omega
      rw [if_neg (by omega), List.nil_append, hnumber, ih]
      rfl

/-- A violation with its line further down. -/
def Violation.moved (count : Nat) (v : Violation) : Violation := { v with line := count + v.line }

/-- The violations on a line that is further down are further down. -/
theorem violationsOn_moved (count : Nat) (x : List Char × Nat) :
    violationsOn (x.1, count + x.2) = (violationsOn x).map (Violation.moved count) := by
  rw [violationsOn, violationsOn]
  split
  · rfl
  · rw [lineViolations, lineViolations]
    cases validateLine (String.ofList (trimChars x.1)) with
    | ok entry => rfl
    | error broken =>
      rw [List.map_map]
      rfl

/-- The violations on lines that are numbered from further on are further down. -/
theorem flatMap_violationsOn_moved (count : Nat) :
    (lines.zipIdx (count + first)).flatMap violationsOn =
      ((lines.zipIdx first).flatMap violationsOn).map (Violation.moved count) := by
  rw [← List.map_snd_add_zipIdx_eq_zipIdx, List.flatMap_map, List.map_flatMap]
  congr 1
  funext x
  rw [← violationsOn_moved, Nat.add_comm count]
  rfl

end

/-! ## Texts -/

/-- Where a text goes on after the end of a line, its physical lines are those of both parts; the
first part has an empty one after its last line feed, which the second part takes the place of. -/
theorem physicalLines_append {a : String} (h : a = "" ∨ a.toList.getLast? = some '\n')
    (b : String) :
    ∃ lines, lines.length = a.toList.count '\n' ∧ physicalLines a = lines ++ [[]] ∧
      physicalLines (a ++ b) = lines ++ physicalLines b := by
  rcases h with rfl | h
  · exact ⟨[], rfl, rfl, by rw [String.empty_append, List.nil_append]⟩
  · obtain ⟨cs, hcs⟩ := List.getLast?_eq_some_iff.1 h
    refine ⟨cs.splitOn '\n', ?_, ?_, ?_⟩
    · rw [length_splitOn, hcs, List.count_append, List.count_singleton_self]
    · rw [physicalLines, hcs]
      exact List.splitOnP_append_cons cs [] rfl
    · rw [physicalLines, String.toList_append, hcs, List.append_assoc, List.singleton_append]
      exact List.splitOnP_append_cons cs b.toList rfl

/-- **A text that goes on after the end of a line is checked like its two parts**, with the lines
of the second one further down. -/
theorem validateText_append {a : String} (h : a = "" ∨ a.toList.getLast? = some '\n')
    (b : String) :
    validateText (a ++ b) =
      ((validateText a).1 + (validateText b).1,
        (validateText a).2 ++
          (validateText b).2.map (Violation.moved (a.toList.count '\n'))) := by
  obtain ⟨lines, hlength, ha, hab⟩ := physicalLines_append h b
  rw [validateText_eq, validateText_eq a, validateText_eq b, hab, ha, Prod.mk.injEq]
  constructor
  · simp only [List.countP_append, List.countP_singleton, List.any_nil, Bool.false_eq_true,
      if_false, Nat.add_zero]
  · rw [List.zipIdx_append, List.zipIdx_append, List.flatMap_append, List.flatMap_append,
      Nat.add_comm 1 lines.length, flatMap_violationsOn_moved, hlength]
    simp [violationsOn]

/-- The violations of a text with a number are those on the line with this number. -/
theorem filter_validateText (text : String) (number : Nat) :
    (validateText text).2.filter (fun v => v.line = number) =
      (physicalLine? text number).elim [] fun line => violationsOn (line, number) := by
  have hviolations := congrArg Prod.snd (validateText_eq text)
  rw [hviolations]
  cases number with
  | zero =>
    rw [physicalLine?, Option.elim_none, List.filter_eq_nil_iff]
    intro v hv
    obtain ⟨x, hx, hvx⟩ := List.mem_flatMap.1 hv
    have := List.le_snd_of_mem_zipIdx hx
    rw [line_of_mem_violationsOn hvx, decide_eq_true_iff]
    omega
  | succ index =>
    rw [physicalLine?, Nat.add_comm]
    exact filter_flatMap_violationsOn (physicalLines text) 1 index

/-- A text is checked line by line. Its lines that are not blank are counted; the numbers of the
lines on which there are violations ascend; each of them is the number of a physical line that is
not blank; the violations with the number of a line are those on the line alone; so on lines that
are equal the same violations are found in all texts. -/
structure CheckedByLine (text : String) : Prop where
  count_eq : (validateText text).1 =
    (physicalLines text).countP fun line => line.any fun c => !isBlank c
  ascending : ((validateText text).2.map Violation.line).Pairwise (· ≤ ·)
  on_line : ∀ v ∈ (validateText text).2, ∃ line, physicalLine? text v.line = some line ∧
    ∃ c ∈ line, isBlank c = false
  each_line : ∀ number, (validateText text).2.filter (fun v => v.line = number) =
    (physicalLine? text number).elim [] fun line => violationsOn (line, number)
  independent : ∀ (text' : String) (number : Nat),
    physicalLine? text number = physicalLine? text' number →
      (validateText text).2.filter (fun v => v.line = number) =
        (validateText text').2.filter (fun v => v.line = number)

/-- **Every text is checked line by line.** -/
theorem checkedByLine (text : String) : CheckedByLine text where
  count_eq := by rw [validateText_eq]
  ascending := by
    rw [List.pairwise_map, validateText_eq]
    exact pairwise_line_violationsOn (physicalLines text) 1
  on_line v hv := by
    have hfilter : v ∈ (validateText text).2.filter fun v' => v'.line = v.line :=
      List.mem_filter.2 ⟨hv, decide_eq_true rfl⟩
    rw [filter_validateText] at hfilter
    cases hline : physicalLine? text v.line with
    | none =>
      rw [hline] at hfilter
      cases hfilter
    | some line =>
      rw [hline] at hfilter
      exact ⟨line, rfl, exists_not_blank_of_mem_violationsOn hfilter⟩
  each_line number := filter_validateText text number
  independent text' number h := by rw [filter_validateText, filter_validateText, h]

/-- **Logs are checked line by line.** If a text is empty or ends at the end of a line, then what
it makes with another text after it has the lines of both that are not blank, and the violations of
both, those of the second one with the line feeds of the first one added to their numbers. In any
text the numbers of the lines with violations ascend, each is that of a physical line that is not
blank, and what is found on a line does not depend on any other line. -/
theorem validateText_compositional {a b : String} {m n : Nat} {ea eb : List Violation}
    (h : a = "" ∨ a.toList.getLast? = some '\n') (ha : validateText a = (m, ea))
    (hb : validateText b = (n, eb)) :
    validateText (a ++ b) =
        (m + n, ea ++ eb.map (Violation.moved (a.toList.count '\n'))) ∧
      ∀ text, CheckedByLine text := by
  refine ⟨?_, checkedByLine⟩
  rw [validateText_append h, ha, hb]

/-- The theorem on two texts with blank lines: an empty one, and one that a carriage return stands
on. -/
theorem validateText_compositional_blankLines :
    "\n[]\n".toList.getLast? = some '\n' ∧
      validateText "\n[]\n" = (1, [⟨2, .notObject⟩]) ∧
      validateText " \r\n[]" = (1, [⟨2, .notObject⟩]) ∧
      validateText ("\n[]\n" ++ " \r\n[]") = (2, [⟨2, .notObject⟩, ⟨4, .notObject⟩]) := by
  have hlast : "\n[]\n".toList.getLast? = some '\n' := by decide
  have ha : validateText "\n[]\n" = (1, [⟨2, .notObject⟩]) := rfl
  have hb : validateText " \r\n[]" = (1, [⟨2, .notObject⟩]) := rfl
  exact ⟨hlast, ha, hb, (validateText_compositional (.inr hlast) ha hb).1⟩

end CopyTrial
