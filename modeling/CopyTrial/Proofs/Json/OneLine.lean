import CopyTrial.Proofs.Json.Reads
import CopyTrial.Json.Printer

/-!
# Compact documents stand on one line

A document in the compact layout holds no control character: those in its texts are escaped, and
nothing else is written that is one.

## Main definitions

* `Json.Visible` — there is no control character below the blank.

## Main results

* `Json.visible_render` — a document in the compact layout is visible.
* `Json.render_object_eq` — an object in the compact layout stands between braces.
-/

set_option autoImplicit false

namespace CopyTrial.Json

/-- There is no control character below the blank. -/
def Visible (cs : List Char) : Prop := ∀ c ∈ cs, 0x20 ≤ c.toNat

/-! ## Pieces of documents -/

/-- Nothing is visible where nothing is. -/
@[simp] theorem visible_nil : Visible [] := by simp [Visible]

/-- Characters are visible if the first one and the others are. -/
@[simp] theorem visible_cons (c : Char) (cs : List Char) :
    Visible (c :: cs) ↔ 0x20 ≤ c.toNat ∧ Visible cs := by simp [Visible]

/-- Characters are visible if those of both parts are. -/
@[simp] theorem visible_append (cs ds : List Char) :
    Visible (cs ++ ds) ↔ Visible cs ∧ Visible ds := by
  simp [Visible, or_imp, forall_and]

/-- Part of visible characters is visible. -/
theorem Visible.subset {cs ds : List Char} (h : Visible ds) (hsub : cs ⊆ ds) : Visible cs :=
  fun c hc => h c (hsub hc)

/-- Copies of a visible character are visible. -/
theorem visible_replicate (n : Nat) {c : Char} (h : 0x20 ≤ c.toNat) :
    Visible (List.replicate n c) := by
  intro d hd
  rwa [List.eq_of_mem_replicate hd]

/-- Digits are visible. -/
theorem visible_of_isDigit {c : Char} (h : c.isDigit) : 0x20 ≤ c.toNat := by
  have hzero : '0'.toNat ≤ c.toNat := by
    simp only [Char.isDigit, Bool.and_eq_true, decide_eq_true_eq] at h
    exact h.1
  exact Nat.le_trans (by decide) hzero

/-- A numeral is visible. -/
theorem visible_toDigits (n : Nat) : Visible (Nat.toDigits 10 n) :=
  fun c hc => visible_of_isDigit (isDigit_of_mem_toDigits c hc)

/-- Hexadecimal digits are visible. -/
theorem visible_hexDigit (n : Nat) : 0x20 ≤ (hexDigit n).toNat := by
  have hdigits : ∀ m < 16, 0x20 ≤ m.digitChar.toNat := by decide
  exact hdigits _ (Nat.mod_lt _ (by decide))

/-- What stands for a character between quotes is visible. -/
theorem visible_escape (c : Char) : Visible (escape c) := by
  unfold escape
  split
  · simp
  split
  · simp
  split
  · simp
  split
  · simp
  split
  · simp
  split
  · simp
  split
  · simp
  split
  · simp [visible_hexDigit]
  · next hcontrol => simpa using Nat.le_of_not_lt hcontrol

/-- A quoted text is visible. -/
theorem visible_quote (s : String) : Visible (quote s) := by
  have hescaped : Visible (s.toList.flatMap escape) := by
    intro c hc
    obtain ⟨d, -, hd⟩ := List.mem_flatMap.1 hc
    exact visible_escape d c hd
  simp [quote, hescaped]

/-- The spelling of an integer is visible. -/
theorem visible_integerText (i : Int) : Visible (integerText i) := by
  unfold integerText
  split <;> simp [visible_toDigits]

/-- The spelling of a positive decimal is visible. -/
theorem visible_scaledText (format : DecimalFormat) (d : Decimal.Scaled) :
    Visible (scaledText format d) := by
  have hdigits := visible_toDigits d.units
  have htake := fun n => hdigits.subset (List.take_subset n _)
  have hdrop := fun n => hdigits.subset (List.drop_subset n _)
  have hzeros : ∀ n, Visible (List.replicate n '0') := fun n => visible_replicate n (by decide)
  unfold scaledText
  simp only
  split
  · split
    · simp [hdigits, hzeros]
    · split <;> simp [hdigits, htake, hdrop, hzeros]
  · have hmark : Visible (if (Nat.toDigits 10 d.units).length = 1 then Nat.toDigits 10 d.units
        else (Nat.toDigits 10 d.units).take 1 ++ '.' :: (Nat.toDigits 10 d.units).drop 1) := by
      split
      · exact hdigits
      · rw [visible_append, visible_cons]
        exact ⟨htake 1, by decide, hdrop 1⟩
    rw [visible_append, visible_cons, visible_cons]
    refine ⟨hmark, by decide, ?_, visible_toDigits _⟩
    split <;> decide

/-- The spelling of a double is visible. -/
theorem visible_decimalText (x : Float) : Visible (decimalText x) := by
  have hmagnitude : ∀ b : Decimal.Binary, Visible (if b.significand = 0 then ['0', '.', '0']
      else scaledText decimalFormat (Decimal.shortest b)) := by
    intro b
    split
    · simp
    · exact visible_scaledText _ _
  unfold decimalText
  simp only
  split
  · rw [visible_cons]
    exact ⟨by decide, hmagnitude _⟩
  · exact hmagnitude _

/-! ## Documents -/

mutual

/-- **A document in the compact layout is visible.** -/
theorem visible_render (level : Nat) : ∀ j : Json, Visible (render .compact level j)
  | .null => by simp [render]
  | .boolean b => by cases b <;> simp [render, booleanText]
  | .integer i => visible_integerText i
  | .double x => visible_decimalText x
  | .text s => visible_quote s
  | .array elements => by
    rw [render, visible_cons]
    exact ⟨by decide, visible_renderElements level elements⟩
  | .object members => by
    rw [render, visible_cons]
    exact ⟨by decide, visible_renderMembers level members⟩

/-- The elements of an array are visible. -/
theorem visible_renderElements (level : Nat) :
    ∀ elements : List Json, Visible (renderElements .compact level elements)
  | [] => by simp [renderElements]
  | j :: rest => by
    simp only [renderElements, Layout.gap, List.nil_append, visible_append]
    exact ⟨visible_render (level + 1) j, visible_renderMoreElements level rest⟩

/-- Further elements are visible. -/
theorem visible_renderMoreElements (level : Nat) :
    ∀ elements : List Json, Visible (renderMoreElements .compact level elements)
  | [] => by simp [renderMoreElements, Layout.gap]
  | j :: rest => by
    simp only [renderMoreElements, Layout.gap, List.nil_append, visible_cons, visible_append]
    exact ⟨by decide, visible_render (level + 1) j, visible_renderMoreElements level rest⟩

/-- The members of an object are visible. -/
theorem visible_renderMembers (level : Nat) :
    ∀ members : List (String × Json), Visible (renderMembers .compact level members)
  | [] => by simp [renderMembers]
  | (name, j) :: rest => by
    simp only [renderMembers, Layout.gap, Layout.afterColon, List.nil_append, visible_cons,
      visible_append]
    exact ⟨visible_quote name, by decide, visible_render (level + 1) j,
      visible_renderMoreMembers level rest⟩

/-- Further members are visible. -/
theorem visible_renderMoreMembers (level : Nat) :
    ∀ members : List (String × Json), Visible (renderMoreMembers .compact level members)
  | [] => by simp [renderMoreMembers, Layout.gap]
  | (name, j) :: rest => by
    simp only [renderMoreMembers, Layout.gap, Layout.afterColon, List.nil_append, visible_cons,
      visible_append]
    exact ⟨by decide, visible_quote name, by decide, visible_render (level + 1) j,
      visible_renderMoreMembers level rest⟩

end

/-- Further members end with the closing brace. -/
theorem renderMoreMembers_eq (level : Nat) (members : List (String × Json)) :
    ∃ cs, renderMoreMembers .compact level members = cs ++ ['\x7d'] := by
  induction members with
  | nil => exact ⟨[], rfl⟩
  | cons m members ih =>
    obtain ⟨cs, hcs⟩ := ih
    refine ⟨',' :: (quote m.1 ++ ':' :: (render .compact (level + 1) m.2 ++ cs)), ?_⟩
    simp [renderMoreMembers, Layout.gap, Layout.afterColon, hcs]

/-- **An object in the compact layout stands between braces.** -/
theorem render_object_eq (level : Nat) (members : List (String × Json)) :
    ∃ cs, render .compact level (.object members) = '\x7b' :: (cs ++ ['\x7d']) := by
  cases members with
  | nil => exact ⟨[], rfl⟩
  | cons m members =>
    obtain ⟨cs, hcs⟩ := renderMoreMembers_eq level members
    refine ⟨quote m.1 ++ ':' :: (render .compact (level + 1) m.2 ++ cs), ?_⟩
    simp [render, renderMembers, Layout.gap, Layout.afterColon, hcs]

end CopyTrial.Json
