import CopyTrial.Proofs.Json.Numbers

/-!
# Written documents are read back

A document without doubles whose integers fit a word is read back from its text, in either layout,
as long as its containers are not nested too deep.

## Main definitions

* `Json.Plain` — no number of the document is a double, and every integer fits a word.

## Main results

* `Json.follows_elements`, `Json.follows_members` — lists and objects, for any reader of what is in
  them.
* `Json.reads_value` — a plain document is read back, whatever follows it.
* `Json.parse_render` — a text that holds nothing else is read as the document.

## Design

The lemmas on lists and objects leave open what reads an element or a member, and say what that
reader must do on the written element or member. What it gives need not be a document, and it may
fail; then so does the reader of the whole.
-/

set_option autoImplicit false

namespace CopyTrial.Json

/-! ### Plain documents -/

/-- No number of the document is a double, and every integer fits a word. -/
inductive Plain : Json → Prop where
  | null : Plain .null
  | boolean (b : Bool) : Plain (.boolean b)
  | integer {i : Int} (h : InWordRange i) : Plain (.integer i)
  | text (s : String) : Plain (.text s)
  | array {elements : List Json} (h : ∀ j ∈ elements, Plain j) : Plain (.array elements)
  | object {members : List (String × Json)} (h : ∀ m ∈ members, Plain m.2) :
    Plain (.object members)

mutual

/-- A canonical document without doubles is plain. -/
theorem Canonical.plain : ∀ {j : Json}, j.Canonical → j.DoubleFree → j.Plain
  | .null, _, _ => .null
  | .boolean b, _, _ => .boolean b
  | .integer _, h, _ => .integer h
  | .double _, _, h => h.elim
  | .text s, _, _ => .text s
  | .array _, h, h' => .array (CanonicalElements.plain h h')
  | .object _, h, h' => .object (CanonicalMembers.plain h.2 h')

/-- Canonical elements without doubles are plain. -/
theorem CanonicalElements.plain : ∀ {elements : List Json},
    CanonicalElements elements → DoubleFreeElements elements → ∀ j ∈ elements, j.Plain
  | [], _, _ => by simp
  | _ :: _, h, h' =>
    List.forall_mem_cons.2 ⟨h.1.plain h'.1, CanonicalElements.plain h.2 h'.2⟩

/-- The values of canonical members without doubles are plain. -/
theorem CanonicalMembers.plain : ∀ {members : List (String × Json)},
    CanonicalMembers members → DoubleFreeMembers members → ∀ m ∈ members, m.2.Plain
  | [], _, _ => by simp
  | _ :: _, h, h' =>
    List.forall_mem_cons.2 ⟨h.1.plain h'.1, CanonicalMembers.plain h.2 h'.2⟩

end

/-- Elements are nested as deep as the deepest one. -/
theorem depthElements_le_iff {elements : List Json} {n : Nat} :
    depthElements elements ≤ n ↔ ∀ j ∈ elements, j.depth ≤ n := by
  induction elements with
  | nil => simp [depthElements]
  | cons j rest ih => rw [depthElements, Nat.max_le, ih, List.forall_mem_cons]

/-- Members are nested as deep as the deepest value. -/
theorem depthMembers_le_iff {members : List (String × Json)} {n : Nat} :
    depthMembers members ≤ n ↔ ∀ m ∈ members, m.2.depth ≤ n := by
  induction members with
  | nil => simp [depthMembers]
  | cons m rest ih => rw [depthMembers, Nat.max_le, ih, List.forall_mem_cons]

/-- Elements hold no double if none of them does. -/
theorem doubleFreeElements_iff {elements : List Json} :
    DoubleFreeElements elements ↔ ∀ j ∈ elements, j.DoubleFree := by
  induction elements with
  | nil => simp [DoubleFreeElements]
  | cons j rest ih => rw [DoubleFreeElements, ih, List.forall_mem_cons]

/-- Members hold no double if none of their values does. -/
theorem doubleFreeMembers_iff {members : List (String × Json)} :
    DoubleFreeMembers members ↔ ∀ m ∈ members, m.2.DoubleFree := by
  induction members with
  | nil => simp [DoubleFreeMembers]
  | cons m rest ih => rw [DoubleFreeMembers, ih, List.forall_mem_cons]

/-- The canonical forms of elements are those of each. -/
theorem canonicalElements_eq_map (elements : List Json) :
    canonicalElements elements = elements.map canonical := by
  induction elements with
  | nil => rfl
  | cons j rest ih => rw [canonicalElements, ih, List.map_cons]

/-- The values of canonical members are the canonical forms of values. -/
theorem forall_mem_canonicalMembers {P : Json → Prop} {members done : List (String × Json)}
    (hdone : ∀ m ∈ done, P m.2) (h : ∀ m ∈ members, P m.2.canonical) :
    ∀ m ∈ canonicalMembers done members, P m.2 := by
  induction members generalizing done with
  | nil => exact hdone
  | cons m rest ih =>
    obtain ⟨hm, hrest⟩ := List.forall_mem_cons.1 h
    refine ih (fun m' hm' => ?_) hrest
    rcases mem_insertMember hm' with rfl | hm'
    · exact hm
    · exact hdone m' hm'

/-- The canonical form of a plain document holds no double. -/
theorem Plain.canonical_doubleFree {j : Json} (h : j.Plain) : j.canonical.DoubleFree := by
  induction h with
  | null => trivial
  | boolean b => trivial
  | integer h =>
    rw [canonical, if_pos h]
    trivial
  | text s => trivial
  | array h ih =>
    refine doubleFreeElements_iff.2 ?_
    rw [canonicalElements_eq_map]
    exact List.forall_mem_map.2 ih
  | object h ih =>
    exact doubleFreeMembers_iff.2 (forall_mem_canonicalMembers (by simp) ih)

/-- The canonical form of a plain document is not nested deeper. -/
theorem Plain.depth_canonical_le {j : Json} (h : j.Plain) : j.canonical.depth ≤ j.depth := by
  induction h with
  | null => exact Nat.le_refl _
  | boolean b => exact Nat.le_refl _
  | integer h => exact Nat.le_of_eq (congrArg depth (if_pos h))
  | text s => exact Nat.le_refl _
  | @array elements h ih =>
    have hdepth := depthElements_le_iff.1 (Nat.le_refl (depthElements elements))
    refine Nat.succ_le_succ (depthElements_le_iff.2 ?_)
    rw [canonicalElements_eq_map]
    exact List.forall_mem_map.2 fun j hj => Nat.le_trans (ih j hj) (hdepth j hj)
  | @object members h ih =>
    have hdepth := depthMembers_le_iff.1 (Nat.le_refl (depthMembers members))
    refine Nat.succ_le_succ (depthMembers_le_iff.2 ?_)
    exact forall_mem_canonicalMembers (P := fun j => j.depth ≤ depthMembers members) (by simp)
      fun m hm => Nat.le_trans (ih m hm) (hdepth m hm)

/-! ### The first character -/

/-- Digits start nothing but numbers. -/
theorem isDigit_ne {c : Char} (h : c.isDigit) :
    isBlank c = false ∧ c ≠ ']' ∧ c ≠ '[' ∧ c ≠ '{' ∧ c ≠ 'n' ∧ c ≠ 't' ∧ c ≠ 'f' ∧ c ≠ '"' := by
  have hne : ∀ d : Char, d.isDigit = false → c ≠ d := fun d hd hcd => by simp [hcd, hd] at h
  refine ⟨?_, hne _ rfl, hne _ rfl, hne _ rfl, hne _ rfl, hne _ rfl, hne _ rfl, hne _ rfl⟩
  simp only [isBlank, Bool.or_eq_false_iff, decide_eq_false_iff_not]
  exact ⟨⟨⟨hne _ rfl, hne _ rfl⟩, hne _ rfl⟩, hne _ rfl⟩

/-- What the first character of a document tells of it. -/
structure Starts (c : Char) (j : Json) : Prop where
  not_blank : isBlank c = false
  ne_close : c ≠ ']'
  null : c = 'n' → j = .null
  text : c = '"' → ∃ s, j = .text s
  array : c = '[' → ∃ js, j = .array js
  object : c = '\x7b' → ∃ ms, j = .object ms

/-- What starts with a minus sign or a digit starts as a number. -/
theorem starts_of_number {c : Char} (hc : c = '-' ∨ c.isDigit) (j : Json) : Starts c j := by
  rcases hc with rfl | hc
  · constructor <;> simp [isBlank]
  · obtain ⟨hblank, hclose, harray, hobject, hnull, -, -, htext⟩ := isDigit_ne hc
    exact ⟨hblank, hclose, fun h => absurd h hnull, fun h => absurd h htext,
      fun h => absurd h harray, fun h => absurd h hobject⟩

/-- Every document has a first character, which tells what the document is. -/
theorem exists_render_eq_cons (layout : Layout) (level : Nat) (j : Json) :
    ∃ c cs, render layout level j = c :: cs ∧ Starts c j := by
  cases j with
  | null => exact ⟨'n', _, rfl, by constructor <;> simp [isBlank]⟩
  | boolean b =>
    cases b with
    | true => exact ⟨'t', _, rfl, by constructor <;> simp [isBlank]⟩
    | false => exact ⟨'f', _, rfl, by constructor <;> simp [isBlank]⟩
  | integer i =>
    obtain ⟨c, cs, hcons, hc⟩ := integerText_eq_cons i
    exact ⟨c, cs, hcons, starts_of_number hc _⟩
  | double x =>
    obtain ⟨c, cs, hcons, hc⟩ := decimalText_eq_cons x
    exact ⟨c, cs, hcons, starts_of_number hc _⟩
  | text s => exact ⟨'"', _, rfl, by constructor <;> simp [isBlank]⟩
  | array js => exact ⟨'[', _, rfl, by constructor <;> simp [isBlank]⟩
  | object ms => exact ⟨'\x7b', _, rfl, by constructor <;> simp [isBlank]⟩

/-- What follows a gap is blank. -/
theorem Layout.isBlank_of_mem_gap {layout : Layout} {level : Nat} :
    ∀ c ∈ layout.gap level, isBlank c := by
  intro c hc
  cases layout with
  | compact => simp [Layout.gap] at hc
  | pretty =>
    rcases List.mem_cons.1 hc with rfl | hc
    · rfl
    · rw [List.eq_of_mem_replicate hc]
      rfl

/-- What follows a colon is blank. -/
theorem Layout.isBlank_of_mem_afterColon {layout : Layout} :
    ∀ c ∈ layout.afterColon, isBlank c := by
  cases layout <;> simp [Layout.afterColon, isBlank]

/-- Blanks before a character that is none are passed. -/
theorem reads_blanks_append_cons {taken : List Char} (htaken : ∀ c ∈ taken, isBlank c) {c : Char}
    (hc : isBlank c = false) (rest : List Char) :
    Reads blanks (taken ++ c :: rest) (c :: rest) () :=
  reads_blanks htaken fun d hd => by
    obtain rfl := Option.some.inj hd
    exact hc

/-- A number does not go on with a character that is no part of one. -/
theorem endsNumber_cons {c : Char} (rest : List Char) (hdigit : c.isDigit = false)
    (hpoint : c ≠ '.') (hlower : c ≠ 'e') (hupper : c ≠ 'E') : EndsNumber (c :: rest) := by
  intro d hd
  obtain rfl := Option.some.inj hd
  exact ⟨hdigit, hpoint, hlower, hupper⟩

/-- A number does not go on at the end of a text. -/
theorem endsNumber_nil : EndsNumber [] := fun _ hc => by simp at hc

/-! ### Scalars and the choice by the first character -/

/-- A document that is neither array nor object. -/
def IsScalar : Json → Prop
  | .array _ => False
  | .object _ => False
  | _ => True

section

variable {ε α : Type} {onScalar : Json → Reader α} {onArray onObject : Reader α}
  {ws after : List Char} {result : Except ε α} {a : α}

/-- An opening bracket is left to the reader of arrays. -/
theorem follows_dispatch_array (hws : ∀ c ∈ ws, isBlank c) {cs : List Char}
    (h : Follows onArray ('[' :: cs) after result) :
    Follows (dispatch onScalar onArray onObject) (ws ++ '[' :: cs) after result := by
  unfold dispatch
  refine (reads_blanks_append_cons hws (by decide) cs).bind_follows ((reads_peek _).bind_follows ?_)
  exact h

/-- An array is read if the reader of arrays reads it. -/
theorem reads_dispatch_array (hws : ∀ c ∈ ws, isBlank c) {cs : List Char}
    (h : Reads onArray ('[' :: cs) after a) :
    Reads (dispatch onScalar onArray onObject) (ws ++ '[' :: cs) after a := by
  show Follows _ _ _ (.ok a : Except Unit α)
  exact follows_dispatch_array hws h

/-- An opening brace is left to the reader of objects. -/
theorem follows_dispatch_object (hws : ∀ c ∈ ws, isBlank c) {cs : List Char}
    (h : Follows onObject ('{' :: cs) after result) :
    Follows (dispatch onScalar onArray onObject) (ws ++ '{' :: cs) after result := by
  unfold dispatch
  refine (reads_blanks_append_cons hws (by decide) cs).bind_follows ((reads_peek _).bind_follows ?_)
  exact h

/-- An object is read if the reader of objects reads it. -/
theorem reads_dispatch_object (hws : ∀ c ∈ ws, isBlank c) {cs : List Char}
    (h : Reads onObject ('{' :: cs) after a) :
    Reads (dispatch onScalar onArray onObject) (ws ++ '{' :: cs) after a := by
  show Follows _ _ _ (.ok a : Except Unit α)
  exact follows_dispatch_object hws h

/-- What starts as a scalar is read as one, by its first character, and handed on. -/
theorem follows_dispatch_scalar {j : Json} (hj : IsScalar j) (hws : ∀ c ∈ ws, isBlank c)
    (layout : Layout) (level : Nat) (rest : List Char)
    (h : ∀ c cs, render layout level j = c :: cs →
      Follows (do let j ← scalar c; onScalar j) (c :: (cs ++ rest)) after result) :
    Follows (dispatch onScalar onArray onObject) (ws ++ (render layout level j ++ rest)) after
      result := by
  obtain ⟨c, cs, hcons, hc⟩ := exists_render_eq_cons layout level j
  have harray : c ≠ '[' := fun heq => by
    obtain ⟨js, rfl⟩ := hc.array heq
    exact hj
  have hobject : c ≠ '{' := fun heq => by
    obtain ⟨ms, rfl⟩ := hc.object heq
    exact hj
  rw [hcons, List.cons_append]
  unfold dispatch
  refine (reads_blanks_append_cons hws hc.not_blank _).bind_follows
    ((reads_peek _).bind_follows ?_)
  simp only [List.head?_cons, harray, hobject, if_false]
  exact h c cs hcons

/-- A literal after its first letter is read back. -/
theorem reads_literal (first : Char) (letters rest : List Char) (j : Json) :
    Reads (do advance; word letters; pure j) (first :: (letters ++ rest)) rest j :=
  (reads_advance first _).bind ((reads_word letters rest).bind (Reads.pure j rest))

/-- A character that starts a number is read as its first one. -/
theorem scalar_of_number {c : Char} (hc : c = '-' ∨ c.isDigit) : scalar c = number := by
  rcases hc with rfl | hc
  · rfl
  · obtain ⟨-, -, -, -, hn, ht, hf, hquote⟩ := isDigit_ne hc
    simp [scalar, hn, ht, hf, hquote, hc]

/-- A plain scalar is read back, by its first character. -/
theorem reads_scalar {j : Json} (hplain : j.Plain) (hj : IsScalar j) {layout : Layout} {level : Nat}
    {c : Char} {cs : List Char} (hcons : render layout level j = c :: cs) {rest : List Char}
    (hrest : EndsNumber rest) : Reads (scalar c) (c :: (cs ++ rest)) rest j := by
  cases hplain with
  | null =>
    obtain ⟨rfl, rfl⟩ := List.cons.inj hcons
    exact reads_literal 'n' ['u', 'l', 'l'] rest .null
  | boolean b =>
    cases b with
    | true =>
      obtain ⟨rfl, rfl⟩ := List.cons.inj hcons
      exact reads_literal 't' ['r', 'u', 'e'] rest (.boolean true)
    | false =>
      obtain ⟨rfl, rfl⟩ := List.cons.inj hcons
      exact reads_literal 'f' ['a', 'l', 's', 'e'] rest (.boolean false)
  | @integer i hi =>
    obtain ⟨d, ds, htext, hd⟩ := integerText_eq_cons i
    have hread := reads_number hi hrest
    rw [htext] at hread
    rw [render, htext] at hcons
    obtain ⟨rfl, rfl⟩ := List.cons.inj hcons
    rw [scalar_of_number hd]
    exact hread
  | text s =>
    obtain ⟨rfl, rfl⟩ := List.cons.inj hcons
    rw [List.append_assoc]
    exact (reads_advance '"' _).bind
      ((reads_textTail s rest).bind (Reads.pure (Json.text s) rest))
  | array => exact hj.elim
  | object => exact hj.elim

/-- **A scalar is read back and handed on.** -/
theorem reads_dispatch_scalar {j : Json} (hplain : j.Plain) (hj : IsScalar j)
    (hws : ∀ c ∈ ws, isBlank c) (layout : Layout) (level : Nat) {rest : List Char}
    (hrest : EndsNumber rest) (h : Reads (onScalar j) rest after a) :
    Reads (dispatch onScalar onArray onObject) (ws ++ (render layout level j ++ rest)) after a := by
  show Follows _ _ _ (.ok a : Except Unit α)
  refine follows_dispatch_scalar hj hws layout level rest fun c cs hcons => ?_
  exact (reads_scalar hplain hj hcons hrest).bind h

end

/-! ### Lists -/

/-- The closing bracket ends the elements of a list. -/
theorem reads_nextElement_end {ws : List Char} (hws : ∀ c ∈ ws, isBlank c) (isFirst : Bool)
    (rest : List Char) : Reads (nextElement isFirst) (ws ++ ']' :: rest) (']' :: rest) false := by
  unfold nextElement
  refine (reads_blanks_append_cons hws (by decide) rest).bind ((reads_peek _).bind ?_)
  exact Reads.pure false _

/-- The first element stands after the opening bracket. -/
theorem reads_nextElement_first {ws : List Char} (hws : ∀ c ∈ ws, isBlank c) {c : Char}
    (hblank : isBlank c = false) (hend : c ≠ ']') (cs : List Char) :
    Reads (nextElement true) (ws ++ c :: cs) (c :: cs) true := by
  unfold nextElement
  refine (reads_blanks_append_cons hws hblank cs).bind ((reads_peek _).bind ?_)
  simp only [List.head?_cons, hend, if_false, if_true]
  exact Reads.pure true _

/-- Every other element stands after a comma. -/
theorem reads_nextElement_more {ws : List Char} (hws : ∀ c ∈ ws, isBlank c) {c : Char}
    (hblank : isBlank c = false) (hend : c ≠ ']') (cs : List Char) :
    Reads (nextElement false) (',' :: (ws ++ c :: cs)) (c :: cs) true := by
  unfold nextElement
  refine (reads_blanks_cons _ (by decide)).bind ((reads_peek _).bind ?_)
  refine (reads_advance ',' _).bind ?_
  refine (reads_blanks_append_cons hws hblank cs).bind ((reads_peek _).bind ?_)
  simp only [List.head?_cons, hend, if_false]
  exact Reads.pure true _

/-- A failure in a container is a failure of the whole of it. -/
theorem Rejects.closing {α : Type} {content : Reader α} {before : List Char} (ending : Ending)
    (h : Rejects content before) : Rejects (closing ending content) before := by
  intro p
  obtain ⟨failure, hfailure⟩ := h p
  cases failure with
  | located cause position => exact ⟨_, by simp only [Json.closing, hfailure]; rfl⟩
  | floating cause c => exact ⟨_, by simp only [Json.closing, hfailure]; rfl⟩

/-- The end of a list is found after its content. -/
theorem Reads.closing_list {α : Type} {content : Reader α} {before after : List Char} {a : α}
    (h : Reads content before (']' :: after) a) : Reads (closing listEnd content) before after a := by
  intro p
  obtain ⟨q, hq⟩ := h p
  exact ⟨q.after ']', by simp only [Json.closing, hq]; rfl⟩

/-- A list is read if its content is. -/
theorem Follows.closing_list {ε α : Type} {content : Reader α} {before after : List Char}
    {result : Except ε α} (h : Follows content before (']' :: after) result) :
    Follows (closing listEnd content) before after result := by
  cases result with
  | ok a => exact Reads.closing_list h
  | error e => exact Rejects.closing listEnd h

/-- What follows an element does not continue a number. -/
theorem endsNumber_moreElements (layout : Layout) (level : Nat) (elements : List Json)
    (rest : List Char) : EndsNumber (renderMoreElements layout level elements ++ rest) := by
  cases elements with
  | nil =>
    cases layout <;> exact endsNumber_cons _ (by decide) (by decide) (by decide) (by decide)
  | cons => exact endsNumber_cons _ (by decide) (by decide) (by decide) (by decide)

/-- Each element takes a character at least, and so does the closing bracket. -/
theorem length_lt_renderMoreElements (layout : Layout) (level : Nat) (elements : List Json) :
    elements.length < (renderMoreElements layout level elements).length := by
  induction elements with
  | nil => simp [renderMoreElements]
  | cons j elements ih =>
    simp only [renderMoreElements, List.length_cons, List.length_append]
    omega

section

variable {ε α : Type} {element : Reader α} {layout : Layout} {level : Nat}

/-- Elements after the first one are read up to the closing bracket, or up to the first one that is
not read. -/
theorem follows_moreElements {pairs : List (Json × Except ε α)}
    (h : ∀ x ∈ pairs, ∀ rest, EndsNumber rest →
      Follows element (render layout (level + 1) x.1 ++ rest) rest x.2)
    {fuel : Nat} (hfuel : pairs.length < fuel) (rest : List Char) :
    Follows (elementsWithin element fuel false)
      (renderMoreElements layout level (pairs.map Prod.fst) ++ rest) (']' :: rest)
      (pairs.mapM Prod.snd) := by
  induction pairs generalizing fuel with
  | nil =>
    obtain ⟨fuel, rfl⟩ : ∃ n, fuel = n + 1 := ⟨fuel - 1, by simp at hfuel; omega⟩
    rw [List.map_nil, renderMoreElements, List.append_assoc]
    exact (reads_nextElement_end Layout.isBlank_of_mem_gap false rest).bind (Reads.pure [] _)
  | cons x pairs ih =>
    simp only [List.length_cons] at hfuel
    obtain ⟨fuel, rfl⟩ : ∃ n, fuel = n + 1 := ⟨fuel - 1, by omega⟩
    obtain ⟨hread, hreads⟩ := List.forall_mem_cons.1 h
    obtain ⟨c, cs, hcons, hc⟩ := exists_render_eq_cons layout (level + 1) x.1
    have helement := hread _ (endsNumber_moreElements layout level (pairs.map Prod.fst) rest)
    rw [List.map_cons, renderMoreElements, List.mapM_cons]
    simp only [List.cons_append, List.append_assoc]
    rw [hcons, List.cons_append] at helement ⊢
    refine (reads_nextElement_more Layout.isBlank_of_mem_gap hc.not_blank hc.ne_close _).bind_follows
      ?_
    exact helement.bind fun _ _ => (ih hreads (by omega)).bind fun _ _ => Reads.pure _ _

/-- Elements after the opening bracket are read up to the closing one, or up to the first one that is
not read. -/
theorem follows_elementsWithin {pairs : List (Json × Except ε α)}
    (h : ∀ x ∈ pairs, ∀ rest, EndsNumber rest →
      Follows element (render layout (level + 1) x.1 ++ rest) rest x.2)
    {fuel : Nat} (hfuel : pairs.length < fuel) (rest : List Char) :
    Follows (elementsWithin element fuel true)
      (renderElements layout level (pairs.map Prod.fst) ++ rest) (']' :: rest)
      (pairs.mapM Prod.snd) := by
  obtain ⟨fuel, rfl⟩ : ∃ n, fuel = n + 1 := ⟨fuel - 1, by omega⟩
  cases pairs with
  | nil => exact (reads_nextElement_end (List.forall_mem_nil _) true rest).bind (Reads.pure [] _)
  | cons x pairs =>
    obtain ⟨hread, hreads⟩ := List.forall_mem_cons.1 h
    obtain ⟨c, cs, hcons, hc⟩ := exists_render_eq_cons layout (level + 1) x.1
    have helement := hread _ (endsNumber_moreElements layout level (pairs.map Prod.fst) rest)
    have hmore := follows_moreElements hreads (Nat.lt_of_succ_lt_succ hfuel) rest
    rw [List.map_cons, renderElements, List.mapM_cons]
    simp only [List.append_assoc]
    rw [hcons, List.cons_append] at helement ⊢
    refine (reads_nextElement_first Layout.isBlank_of_mem_gap hc.not_blank hc.ne_close
      _).bind_follows ?_
    exact helement.bind fun _ _ => hmore.bind fun _ _ => Reads.pure _ _

/-- **The elements of a list are read**, up to and with the closing bracket, if each of them is. -/
theorem follows_elements {pairs : List (Json × Except ε α)}
    (h : ∀ x ∈ pairs, ∀ rest, EndsNumber rest →
      Follows element (render layout (level + 1) x.1 ++ rest) rest x.2) (rest : List Char) :
    Follows (closing listEnd (elements element))
      (renderElements layout level (pairs.map Prod.fst) ++ rest) rest (pairs.mapM Prod.snd) := by
  have hfuel : pairs.length <
      (renderElements layout level (pairs.map Prod.fst) ++ rest).length + 1 := by
    cases pairs with
    | nil => simp
    | cons x pairs =>
      have hlength := length_lt_renderMoreElements layout level (pairs.map Prod.fst)
      simp only [List.map_cons, renderElements, List.length_append, List.length_map,
        List.length_cons] at hlength ⊢
      omega
  exact ((follows_elementsWithin h hfuel rest).congr fun _ => rfl).closing_list

/-- The elements of a list are read back, up to and with the closing bracket. -/
theorem reads_elements {pairs : List (Json × α)}
    (h : ∀ x ∈ pairs, ∀ rest, EndsNumber rest →
      Reads element (render layout (level + 1) x.1 ++ rest) rest x.2) (rest : List Char) :
    Reads (closing listEnd (elements element))
      (renderElements layout level (pairs.map Prod.fst) ++ rest) rest (pairs.map Prod.snd) := by
  have hvalues : (pairs.map fun x => (x.1, (.ok x.2 : Except Unit α))).mapM Prod.snd =
      .ok (pairs.map Prod.snd) := by
    induction pairs with
    | nil => rfl
    | cons x pairs ih =>
      rw [List.map_cons, List.mapM_cons, ih (List.forall_mem_cons.1 h).2]
      rfl
  have hread : ∀ x ∈ pairs.map fun x => (x.1, (.ok x.2 : Except Unit α)), ∀ rest,
      EndsNumber rest → Follows element (render layout (level + 1) x.1 ++ rest) rest x.2 :=
    List.forall_mem_map.2 h
  have hlist := follows_elements hread rest
  rw [hvalues, List.map_map] at hlist
  exact hlist

end

/-! ### Objects -/

/-- The closing brace ends the members of an object. -/
theorem reads_nextMember_end {ws : List Char} (hws : ∀ c ∈ ws, isBlank c) (isFirst : Bool)
    (rest : List Char) : Reads (nextMember isFirst) (ws ++ '}' :: rest) ('}' :: rest) false := by
  unfold nextMember
  refine (reads_blanks_append_cons hws (by decide) rest).bind ((reads_peek _).bind ?_)
  exact Reads.pure false _

/-- The first member stands after the opening brace. -/
theorem reads_nextMember_first {ws : List Char} (hws : ∀ c ∈ ws, isBlank c) (cs : List Char) :
    Reads (nextMember true) (ws ++ '"' :: cs) ('"' :: cs) true := by
  unfold nextMember
  refine (reads_blanks_append_cons hws (by decide) cs).bind ((reads_peek _).bind ?_)
  exact Reads.pure true _

/-- Every other member stands after a comma. -/
theorem reads_nextMember_more {ws : List Char} (hws : ∀ c ∈ ws, isBlank c) (cs : List Char) :
    Reads (nextMember false) (',' :: (ws ++ '"' :: cs)) ('"' :: cs) true := by
  unfold nextMember
  refine (reads_blanks_cons _ (by decide)).bind ((reads_peek _).bind ?_)
  refine (reads_advance ',' _).bind ?_
  refine (reads_blanks_append_cons hws (by decide) cs).bind ((reads_peek _).bind ?_)
  exact Reads.pure true _

/-- A name is read back. -/
theorem reads_memberName (name : String) (rest : List Char) :
    Reads memberName ('"' :: (name.toList.flatMap escape ++ '"' :: rest)) rest name :=
  (reads_advance '"' _).bind (reads_textTail name rest)

/-- The colon after a name is passed. -/
theorem reads_colon (rest : List Char) : Reads colon (':' :: rest) rest () := by
  unfold colon
  refine (reads_blanks_cons _ (by decide)).bind ((reads_peek _).bind ?_)
  exact reads_advance ':' rest

/-- The end of an object is found after its content. -/
theorem Reads.closing_object {α : Type} {content : Reader α} {before after : List Char} {a : α}
    (h : Reads content before ('}' :: after) a) :
    Reads (closing objectEnd content) before after a := by
  intro p
  obtain ⟨q, hq⟩ := h p
  exact ⟨q.after '}', by simp only [Json.closing, hq]; rfl⟩

/-- An object is read if its content is. -/
theorem Follows.closing_object {ε α : Type} {content : Reader α} {before after : List Char}
    {result : Except ε α} (h : Follows content before ('}' :: after) result) :
    Follows (closing objectEnd content) before after result := by
  cases result with
  | ok a => exact Reads.closing_object h
  | error e => exact Rejects.closing objectEnd h

/-- What follows a member does not continue a number. -/
theorem endsNumber_moreMembers (layout : Layout) (level : Nat) (members : List (String × Json))
    (rest : List Char) : EndsNumber (renderMoreMembers layout level members ++ rest) := by
  cases members with
  | nil =>
    cases layout <;> exact endsNumber_cons _ (by decide) (by decide) (by decide) (by decide)
  | cons => exact endsNumber_cons _ (by decide) (by decide) (by decide) (by decide)

/-- Each member takes a character at least, and so does the closing brace. -/
theorem length_lt_renderMoreMembers (layout : Layout) (level : Nat)
    (members : List (String × Json)) :
    members.length < (renderMoreMembers layout level members).length := by
  induction members with
  | nil => simp [renderMoreMembers]
  | cons m members ih =>
    simp only [renderMoreMembers, List.length_cons, List.length_append]
    omega

section

variable {σ ε : Type} {member : σ → String → Reader σ} {next : σ → String × Json → Except ε σ}
  {layout : Layout} {level : Nat}

/-- Members after the first one are read up to the closing brace, or up to the first one that is not
read. -/
theorem follows_moreMembers {ms : List (String × Json)}
    (h : ∀ m ∈ ms, ∀ s rest, EndsNumber rest → Follows (member s m.1)
      (':' :: (layout.afterColon ++ (render layout (level + 1) m.2 ++ rest))) rest (next s m))
    {fuel : Nat} (hfuel : ms.length < fuel) (s : σ) (rest : List Char) :
    Follows (membersWithin member fuel false s) (renderMoreMembers layout level ms ++ rest)
      ('}' :: rest) (ms.foldlM next s) := by
  induction ms generalizing fuel s with
  | nil =>
    obtain ⟨fuel, rfl⟩ : ∃ n, fuel = n + 1 := ⟨fuel - 1, by simp at hfuel; omega⟩
    rw [renderMoreMembers, List.append_assoc]
    exact (reads_nextMember_end Layout.isBlank_of_mem_gap false rest).bind (Reads.pure s _)
  | cons m ms ih =>
    simp only [List.length_cons] at hfuel
    obtain ⟨fuel, rfl⟩ : ∃ n, fuel = n + 1 := ⟨fuel - 1, by omega⟩
    obtain ⟨hm, hms⟩ := List.forall_mem_cons.1 h
    have hmember := hm s _ (endsNumber_moreMembers layout level ms rest)
    have hfuel' : ms.length < fuel := by omega
    rw [List.foldlM_cons]
    simp only [renderMoreMembers, quote, List.cons_append, List.append_assoc]
    refine (reads_nextMember_more Layout.isBlank_of_mem_gap _).bind_follows ?_
    refine (reads_memberName m.1 _).bind_follows (hmember.bind fun s₁ _ => ?_)
    exact ih hms hfuel' s₁

/-- Members after the opening brace are read up to the closing one, or up to the first one that is
not read. -/
theorem follows_membersWithin {ms : List (String × Json)}
    (h : ∀ m ∈ ms, ∀ s rest, EndsNumber rest → Follows (member s m.1)
      (':' :: (layout.afterColon ++ (render layout (level + 1) m.2 ++ rest))) rest (next s m))
    {fuel : Nat} (hfuel : ms.length < fuel) (s : σ) (rest : List Char) :
    Follows (membersWithin member fuel true s) (renderMembers layout level ms ++ rest)
      ('}' :: rest) (ms.foldlM next s) := by
  obtain ⟨fuel, rfl⟩ : ∃ n, fuel = n + 1 := ⟨fuel - 1, by omega⟩
  cases ms with
  | nil => exact (reads_nextMember_end (List.forall_mem_nil _) true rest).bind (Reads.pure s _)
  | cons m ms =>
    obtain ⟨hm, hms⟩ := List.forall_mem_cons.1 h
    have hmember := hm s _ (endsNumber_moreMembers layout level ms rest)
    rw [List.foldlM_cons]
    simp only [renderMembers, quote, List.cons_append, List.append_assoc]
    refine (reads_nextMember_first Layout.isBlank_of_mem_gap _).bind_follows ?_
    refine (reads_memberName m.1 _).bind_follows (hmember.bind fun s₁ _ => ?_)
    exact follows_moreMembers hms (Nat.lt_of_succ_lt_succ hfuel) s₁ rest

/-- **The members of an object are read**, up to the closing brace, if each of them is. -/
theorem follows_members {ms : List (String × Json)}
    (h : ∀ m ∈ ms, ∀ s rest, EndsNumber rest → Follows (member s m.1)
      (':' :: (layout.afterColon ++ (render layout (level + 1) m.2 ++ rest))) rest (next s m))
    (s : σ) (rest : List Char) :
    Follows (members member s) (renderMembers layout level ms ++ rest) ('}' :: rest)
      (ms.foldlM next s) := by
  have hfuel : ms.length < (renderMembers layout level ms ++ rest).length + 1 := by
    cases ms with
    | nil => simp
    | cons m ms =>
      have hlength := length_lt_renderMoreMembers layout level ms
      simp only [renderMembers, List.length_append, List.length_cons] at hlength ⊢
      omega
  exact (follows_membersWithin h hfuel s rest).congr fun _ => rfl

end

/-! ### Whole documents -/

/-- Members put one after the other in front of others stand there in reverse. -/
theorem foldlM_cons_reverse (members done : List (String × Json)) :
    members.foldlM (m := Except Unit) (fun done m => .ok (m :: done)) done =
      .ok (members.reverse ++ done) := by
  induction members generalizing done with
  | nil => rfl
  | cons m members ih =>
    rw [List.foldlM_cons]
    show members.foldlM _ (m :: done) = _
    rw [ih, List.reverse_cons, List.append_assoc]
    rfl

section

variable {layout : Layout} {level depth : Nat} {ws : List Char}

/-- An array is read back if its elements are, with one container less. -/
theorem reads_value_array (hws : ∀ c ∈ ws, isBlank c) {js : List Json}
    (h : ∀ j ∈ js, ∀ rest, EndsNumber rest →
      Reads (value depth) (render layout (level + 1) j ++ rest) rest j) (rest : List Char) :
    Reads (value (depth + 1)) (ws ++ (render layout level (.array js) ++ rest)) rest
      (.array js) := by
  have hread : Reads (closing listEnd (elements (value depth)))
      (renderElements layout level ((js.map fun j => (j, j)).map Prod.fst) ++ rest) rest
      ((js.map fun j => (j, j)).map Prod.snd) := by
    refine reads_elements (fun x hx rest hrest => ?_) rest
    obtain ⟨j, hj, rfl⟩ := List.mem_map.1 hx
    exact h j hj rest hrest
  simp only [List.map_map, Function.comp_def, List.map_id'] at hread
  refine reads_dispatch_array hws ?_
  exact (reads_advance '[' _).bind (hread.bind (Reads.pure _ rest))

/-- An object is read back if the values of its members are, with one container less. -/
theorem reads_value_object (hws : ∀ c ∈ ws, isBlank c) {ms : List (String × Json)}
    (h : ∀ m ∈ ms, ∀ rest, EndsNumber rest →
      Reads (value depth) (layout.afterColon ++ (render layout (level + 1) m.2 ++ rest)) rest m.2)
    (rest : List Char) :
    Reads (value (depth + 1)) (ws ++ (render layout level (.object ms) ++ rest)) rest
      (.object ms) := by
  have hread : Follows (members (fun done name => do
        colon
        let j ← value depth
        pure ((name, j) :: done)) [])
      (renderMembers layout level ms ++ rest) ('}' :: rest)
      (ms.foldlM (m := Except Unit) (fun done m => .ok (m :: done)) []) := by
    refine follows_members (fun m hm done rest hrest => ?_) [] rest
    exact (reads_colon _).bind ((h m hm rest hrest).bind (Reads.pure _ rest))
  rw [foldlM_cons_reverse, List.append_nil] at hread
  refine reads_dispatch_object hws ?_
  refine (reads_advance '{' _).bind (Reads.bind hread.closing_object ?_)
  rw [List.reverse_reverse]
  exact Reads.pure _ rest

end

/-- **A plain document is read back**, whatever follows it.

**Proof sketch.** Induction on the depth that is left. The elements and the values of the members
are nested one container less deep, so the lemmas on arrays and objects apply to the reader with
less depth. -/
theorem reads_value (layout : Layout) (depth level : Nat) {j : Json} (hplain : j.Plain)
    (hdepth : j.depth ≤ depth) {ws : List Char} (hws : ∀ c ∈ ws, isBlank c) {rest : List Char}
    (hrest : EndsNumber rest) :
    Reads (value depth) (ws ++ (render layout level j ++ rest)) rest j := by
  induction depth generalizing level j ws rest with
  | zero =>
    have hscalar : IsScalar j := by
      cases j with
      | array elements => exact absurd hdepth (Nat.not_succ_le_zero _)
      | object members => exact absurd hdepth (Nat.not_succ_le_zero _)
      | _ => trivial
    exact reads_dispatch_scalar hplain hscalar hws layout level hrest (Reads.pure j rest)
  | succ depth ih =>
    have hscalar : IsScalar j → Reads (value (depth + 1)) (ws ++ (render layout level j ++ rest))
        rest j := fun hj =>
      reads_dispatch_scalar hplain hj hws layout level hrest (Reads.pure j rest)
    cases hplain with
    | @array js hjs =>
      have hle := depthElements_le_iff.1 (Nat.le_of_succ_le_succ hdepth)
      refine reads_value_array hws (fun j hj rest hrest => ?_) rest
      exact ih (level + 1) (hjs j hj) (hle j hj) (List.forall_mem_nil _) hrest
    | @object ms hms =>
      have hle := depthMembers_le_iff.1 (Nat.le_of_succ_le_succ hdepth)
      refine reads_value_object hws (fun m hm rest hrest => ?_) rest
      exact ih (level + 1) (hms m hm) (hle m hm) Layout.isBlank_of_mem_afterColon hrest
    | null => exact hscalar trivial
    | boolean b => exact hscalar trivial
    | integer hi => exact hscalar trivial
    | text s => exact hscalar trivial

/-- A reader that leaves nothing of a text has read the whole of it. -/
theorem whole_eq_ok {α : Type} {reader : Reader α} {cs : List Char} {a : α}
    (h : Reads reader cs [] a) : whole reader (String.ofList cs) = .ok a := by
  obtain ⟨q, hq⟩ := h ⟨1, 0⟩
  simp only [whole, Cursor.start, String.toList_ofList, hq]
  rfl

/-- A plain document is read back from a text that holds nothing else, in either layout. -/
theorem reads_render (layout : Layout) {j : Json} (hplain : j.Plain)
    (hdepth : j.depth ≤ greatestDepth) :
    Reads (value greatestDepth) (render layout 0 j) [] j := by
  have hread := reads_value layout greatestDepth 0 hplain hdepth (List.forall_mem_nil _)
    endsNumber_nil
  rwa [List.nil_append, List.append_nil] at hread

/-- **A text that holds a plain document is read as that document**, in either layout. -/
theorem parse_render (layout : Layout) {j : Json} (hplain : j.Plain)
    (hdepth : j.depth ≤ greatestDepth) :
    parse (String.ofList (render layout 0 j)) = .ok j :=
  whole_eq_ok (reads_render layout hplain hdepth)

end CopyTrial.Json
