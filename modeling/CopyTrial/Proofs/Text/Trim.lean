import Mathlib.Data.List.TakeWhile
import CopyTrial.Proofs.Text.Lines

/-!
# Blanks and the case of letters

Blanks around a text do not matter once the text is trimmed, however many there are. Letters of the
Latin alphabet are no blanks in either case, so it does not matter whether a text is trimmed first
or turned into lower case first.

## Main results

* `Text.trimChars_append` — blanks that are put around a text are trimmed.
* `Text.trimChars_of_not_blank` — a text without blanks is left alone.
* `Text.trimChars_map_toLower` — trimming does not depend on the case of letters.
-/

set_option autoImplicit false

namespace CopyTrial.Text

/-- Blanks that are put at the end are passed over. -/
theorem trimEnd_append (cs : List Char) {after : List Char} (h : ∀ c ∈ after, isBlank c = true) :
    trimEnd (cs ++ after) = trimEnd cs := by
  induction cs with
  | nil => exact (trimEnd_eq_nil_iff after).2 h
  | cons c cs ih => rw [List.cons_append, trimEnd, ih, trimEnd]

/-- **Blanks that are put around a text are trimmed.** -/
theorem trimChars_append {before after : List Char} (hbefore : ∀ c ∈ before, isBlank c = true)
    (cs : List Char) (hafter : ∀ c ∈ after, isBlank c = true) :
    trimChars (before ++ (cs ++ after)) = trimChars cs := by
  rw [trimChars, List.dropWhile_append_of_pos hbefore, trimChars]
  by_cases hblank : cs.dropWhile isBlank = []
  · -- nothing is left in either case
    have hall : ∀ c ∈ cs, isBlank c = true := by
      rw [List.dropWhile_eq_nil_iff] at hblank
      exact hblank
    rw [List.dropWhile_append_of_pos hall, hblank, trimEnd, trimEnd_eq_nil_iff]
    exact fun c hc => hafter c ((List.dropWhile_sublist isBlank).subset hc)
  · rw [List.dropWhile_append, if_neg (by simpa using hblank), trimEnd_append _ hafter]

/-- Where there are no blanks, none are passed over at the end. -/
theorem trimEnd_of_not_blank {cs : List Char} (h : ∀ c ∈ cs, isBlank c = false) :
    trimEnd cs = cs := by
  induction cs with
  | nil => rfl
  | cons c cs ih =>
    obtain ⟨hc, hcs⟩ := List.forall_mem_cons.1 h
    rw [trimEnd, ih hcs, hc]
    cases cs <;> rfl

/-- **A text without blanks is left alone.** -/
theorem trimChars_of_not_blank {cs : List Char} (h : ∀ c ∈ cs, isBlank c = false) :
    trimChars cs = cs := by
  have hstart : cs.dropWhile isBlank = cs := by
    cases cs with
    | nil => rfl
    | cons c cs => exact List.dropWhile_cons_of_neg (by simp [h c List.mem_cons_self])
  rw [trimChars, hstart, trimEnd_of_not_blank h]

/-- Characters are others with blanks around them, and these others have no blank at either end. -/
def TrimsTo (cs kept : List Char) : Prop :=
  ∃ before after, cs = before ++ (kept ++ after) ∧ (∀ c ∈ before, isBlank c = true) ∧
    (∀ c ∈ after, isBlank c = true) ∧ (∀ c, kept.head? = some c → isBlank c = false) ∧
    ∀ c, kept.getLast? = some c → isBlank c = false

/-- What is passed over at the end are blanks, up to a character that is none. -/
theorem exists_trimEnd_append (cs : List Char) :
    ∃ after, cs = trimEnd cs ++ after ∧ (∀ c ∈ after, isBlank c = true) ∧
      ∀ c, (trimEnd cs).getLast? = some c → isBlank c = false := by
  induction cs with
  | nil => exact ⟨[], rfl, by simp, by simp [trimEnd]⟩
  | cons c cs ih =>
    obtain ⟨after, hcs, hafter, hlast⟩ := ih
    rw [trimEnd]
    cases hkept : trimEnd cs with
    | nil =>
      rw [hkept, List.nil_append] at hcs
      subst hcs
      cases hc : isBlank c with
      | true => exact ⟨c :: cs, by simp, by simpa [hc] using hafter, by simp⟩
      | false => exact ⟨cs, by simp, hafter, by simp [hc]⟩
    | cons d ds =>
      rw [hkept] at hcs hlast
      refine ⟨after, by rw [List.cons_append, ← hcs], hafter, fun e he => hlast e ?_⟩
      rwa [List.getLast?_cons_cons] at he

/-- **Trimming leaves a text without the blanks around it**, and nothing else is left of it without
them. -/
theorem trimsTo_iff (cs kept : List Char) : TrimsTo cs kept ↔ trimChars cs = kept := by
  constructor
  · rintro ⟨before, after, rfl, hbefore, hafter, hhead, hlast⟩
    have hstart : kept.dropWhile isBlank = kept := by
      cases kept with
      | nil => rfl
      | cons c kept => exact List.dropWhile_cons_of_neg (by simp [hhead c rfl])
    rw [trimChars_append hbefore _ hafter, trimChars, hstart]
    -- no more is passed over at the end, where there is no blank
    rcases List.eq_nil_or_concat kept with rfl | ⟨front, c, rfl⟩
    · rfl
    · rw [List.concat_eq_append] at hlast ⊢
      exact trimEnd_append_singleton front (hlast c (by simp))
  · rintro rfl
    obtain ⟨after, hcs, hafter, hlast⟩ := exists_trimEnd_append (cs.dropWhile isBlank)
    refine ⟨cs.takeWhile isBlank, after, ?_, fun c hc => List.mem_takeWhile_imp hc, hafter, ?_,
      hlast⟩
    · rw [trimChars, ← hcs, List.takeWhile_append_dropWhile]
    · intro c hc
      have hfirst : (cs.dropWhile isBlank).head? = some c := by
        rw [hcs, List.head?_append, show (trimEnd _).head? = some c from hc, Option.some_or]
      simpa [hfirst] using List.head?_dropWhile_not isBlank cs

/-- A visible character of ASCII is no blank. -/
theorem isBlank_of_visible {c : Char} (hlower : 0x21 ≤ c.toNat) (hupper : c.toNat ≤ 0x7e) :
    isBlank c = false := by
  simp only [isBlank, Bool.or_eq_false_iff, Bool.and_eq_false_iff, decide_eq_false_iff_not,
    beq_eq_false_iff_ne, ne_eq]
  omega

/-- What is no capital letter has no other case. -/
theorem toLower_of_not_upper {c : Char} (h : ¬ (c.val ≥ 'A'.val ∧ c.val ≤ 'Z'.val)) :
    c.toLower = c :=
  dif_neg h

/-- A character is a blank or none whatever the case of letters. -/
theorem isBlank_toLower (c : Char) : isBlank c.toLower = isBlank c := by
  by_cases hupper : c.val ≥ 'A'.val ∧ c.val ≤ 'Z'.val
  · have hbounds : 65 ≤ c.toNat ∧ c.toNat ≤ 90 := hupper
    have hshift : (c.val + 32).toNat = c.toNat + 32 := by
      rw [UInt32.toNat_add]
      exact Nat.mod_eq_of_lt (Nat.lt_of_le_of_lt (Nat.add_le_add_right hbounds.2 32) (by decide))
    have hlower : c.toLower.toNat = c.toNat + 32 :=
      (congrArg Char.toNat (dif_pos hupper)).trans hshift
    rw [isBlank_of_visible (by omega) (by omega), isBlank_of_visible (by omega) (by omega)]
  · rw [toLower_of_not_upper hupper]

/-- The end of a text is trimmed in the same way after a change that keeps what is blank. -/
theorem trimEnd_map {f : Char → Char} (h : ∀ c, isBlank (f c) = isBlank c) (cs : List Char) :
    trimEnd (cs.map f) = (trimEnd cs).map f := by
  induction cs with
  | nil => rfl
  | cons c cs ih =>
    rw [List.map_cons, trimEnd, ih, trimEnd, h]
    cases trimEnd cs with
    | nil => cases isBlank c <;> rfl
    | cons d ds => rfl

/-- **Trimming does not depend on the case of letters.** -/
theorem trimChars_map_toLower (cs : List Char) :
    trimChars (cs.map Char.toLower) = (trimChars cs).map Char.toLower := by
  have hblank : isBlank ∘ Char.toLower = isBlank := funext isBlank_toLower
  rw [trimChars, List.dropWhile_map, hblank, trimEnd_map isBlank_toLower, trimChars]

end CopyTrial.Text
