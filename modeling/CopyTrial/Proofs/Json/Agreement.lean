import CopyTrial.Proofs.Json.Means
import CopyTrial.Proofs.Json.Skip

/-!
# Reading agrees with decoding

A value is read from a text as the text is scanned, or decoded from a document that is already
there. On the text of a document both do the same, whatever the document is: they give the same
value, or both fail. So what can be said about decoding, where there are no characters, holds for
texts as well.

## Main definitions

* `Json.Agree` — on written documents a reader does what decoding does.
* `Codec.Agrees`, `Variant.Agrees`, `Fields.Agree` — this for codecs, alternatives and all fields of
  a record.

## Main results

* `Codec.Agrees.list`, `Codec.Agrees.record`, `Codec.Agrees.variants` — documents that hold others.
* `Codec.Agrees.parse_render_eq_ok_iff` — a text is read as a value exactly when its document is
  decoded as the value.

## Design

Agreement is about all documents and not only those that mean a value, so the numbers that are
written otherwise than they are read, doubles and integers that fit no word, must be rejected on
both sides. This is why no reader of doubles or of free-form values takes part.
-/

set_option autoImplicit false

namespace CopyTrial

namespace Json

/-- On the text of every document, wherever it stands, a reader does what decoding the document
does, if `n` containers may still be nested there. -/
def Agree {α : Type} (n : Nat) (read : Nat → Reader α) (decode : Json → Except Cause α) : Prop :=
  ∀ (j : Json) (layout : Layout) (level depth : Nat), n ≤ depth → ∀ ws : List Char,
    (∀ c ∈ ws, isBlank c) → ∀ rest, EndsNumber rest →
      Follows (read depth) (ws ++ (render layout level j ++ rest)) rest (decode j)

/-- More containers may be nested. -/
theorem Agree.mono {α : Type} {n n' : Nat} {read : Nat → Reader α} {decode : Json → Except Cause α}
    (h : Agree n read decode) (hn : n ≤ n') : Agree n' read decode :=
  fun j layout level depth hdepth => h j layout level depth (Nat.le_trans hn hdepth)

/-- A function may be applied to what is read and to what is decoded. -/
theorem Agree.map {α β : Type} {n : Nat} {read : Nat → Reader α} {decode : Json → Except Cause α}
    (h : Agree n read decode) (f : α → β) :
    Agree n (fun depth => f <$> read depth) fun j => f <$> decode j :=
  fun j layout level depth hdepth ws hws rest hrest =>
    (h j layout level depth hdepth ws hws rest hrest).map f

section

variable {α : Type}

/-- What was decoded is taken, or the failure to decode it. -/
theorem follows_settle (result : Except Cause α) (cs : List Char) :
    Follows (Codec.settle result) cs cs result := by
  cases result with
  | ok a => exact Reads.pure a cs
  | error cause => exact rejects_failHere cause cs

/-- A text on which a reader fails is not read. -/
theorem exists_whole_eq_error {reader : Reader α} {cs : List Char} (h : Rejects reader cs) :
    ∃ e, whole reader (String.ofList cs) = .error e := by
  obtain ⟨failure, hfailure⟩ := h ⟨1, 0⟩
  exact ⟨failure.error, by simp only [whole, Cursor.start, String.toList_ofList, hfailure]⟩

end

/-! ## Scalars -/

/-- Doubles are not decoded, and neither are integers that fit no word, which stand as doubles. -/
structure WordsOnly {α : Type} (decode : Json → Except Cause α) : Prop where
  double : ∀ x, ∃ cause, decode (.double x) = .error cause
  integer : ∀ i, ¬ InWordRange i → ∃ cause, decode (.integer i) = .error cause

section

variable {α : Type} {decode : Json → Except Cause α} {onScalar : Json → Reader α}

/-- A number that can only be a double is rejected where doubles are not decoded. -/
theorem rejects_number (hdecode : WordsOnly decode)
    (hscalar : ∀ j, IsScalar j → onScalar j = Codec.settle (decode j)) {cs : List Char}
    (h : ∀ p j c, number ⟨cs, p⟩ = .ok (j, c) → ∃ x, j = .double x) :
    Rejects (do let j ← number; onScalar j) cs := by
  intro p
  cases hnumber : number ⟨cs, p⟩ with
  | error failure =>
    exact ⟨failure, by simp only [Bind.bind, StateT.bind, Except.bind, hnumber]⟩
  | ok result =>
    obtain ⟨j, c⟩ := result
    obtain ⟨x, rfl⟩ := h p j c hnumber
    obtain ⟨cause, hcause⟩ := hdecode.double x
    refine ⟨.located cause c.position, ?_⟩
    simp only [Bind.bind, StateT.bind, Except.bind, hnumber, hscalar (.double x) trivial, hcause]
    rfl

/-- A scalar is read as it is decoded, where numbers are words or nothing. -/
theorem follows_scalar (hdecode : WordsOnly decode)
    (hscalar : ∀ j, IsScalar j → onScalar j = Codec.settle (decode j)) {j : Json} (hj : IsScalar j)
    {layout : Layout} {level : Nat} {c : Char} {cs : List Char}
    (hcons : render layout level j = c :: cs) {rest : List Char} (hrest : EndsNumber rest) :
    Follows (do let j ← scalar c; onScalar j) (c :: (cs ++ rest)) rest (decode j) := by
  have hplain : j.Plain →
      Follows (do let j ← scalar c; onScalar j) (c :: (cs ++ rest)) rest (decode j) := by
    intro hplain
    refine (reads_scalar hplain hj hcons hrest).bind_follows ?_
    rw [hscalar j hj]
    exact follows_settle _ rest
  cases j with
  | null => exact hplain .null
  | boolean b => exact hplain (.boolean b)
  | text s => exact hplain (.text s)
  | array js => exact hj.elim
  | object ms => exact hj.elim
  | integer i =>
    by_cases hi : InWordRange i
    · exact hplain (.integer hi)
    · obtain ⟨d, ds, htext, hd⟩ := integerText_eq_cons i
      obtain ⟨rfl, rfl⟩ := List.cons.inj (htext.symm.trans hcons)
      obtain ⟨cause, hcause⟩ := hdecode.integer i hi
      rw [hcause, scalar_of_number hd, ← List.cons_append, ← htext]
      exact rejects_number hdecode hscalar fun p j c => eq_double_of_number_integerText hi hrest
  | double x =>
    obtain ⟨d, ds, htext, hd⟩ := decimalText_eq_cons x
    obtain ⟨rfl, rfl⟩ := List.cons.inj (htext.symm.trans hcons)
    obtain ⟨cause, hcause⟩ := hdecode.double x
    rw [hcause, scalar_of_number hd, ← List.cons_append, ← htext]
    exact rejects_number hdecode hscalar fun p j c => eq_double_of_number_decimalText hrest

/-- **A document is read as it is decoded** if it is a scalar, or a container that its own reader
reads as it is decoded. -/
theorem follows_dispatch {onArray onObject : Reader α} (hdecode : WordsOnly decode)
    (hscalar : ∀ j, IsScalar j → onScalar j = Codec.settle (decode j)) {layout : Layout}
    {level : Nat} {rest : List Char}
    (harray : ∀ js, Follows onArray ('[' :: (renderElements layout level js ++ rest)) rest
      (decode (.array js)))
    (hobject : ∀ ms, Follows onObject ('{' :: (renderMembers layout level ms ++ rest)) rest
      (decode (.object ms)))
    (j : Json) {ws : List Char} (hws : ∀ c ∈ ws, isBlank c) (hrest : EndsNumber rest) :
    Follows (dispatch onScalar onArray onObject) (ws ++ (render layout level j ++ rest)) rest
      (decode j) := by
  have hread : IsScalar j → Follows (dispatch onScalar onArray onObject)
      (ws ++ (render layout level j ++ rest)) rest (decode j) := fun hj =>
    follows_dispatch_scalar hj hws layout level rest fun c cs hcons =>
      follows_scalar hdecode hscalar hj hcons hrest
  cases j with
  | array js => exact follows_dispatch_array hws (harray js)
  | object ms => exact follows_dispatch_object hws (hobject ms)
  | null => exact hread trivial
  | boolean b => exact hread trivial
  | integer i => exact hread trivial
  | double x => exact hread trivial
  | text s => exact hread trivial

end

/-! ## The elements of a list -/

section

variable {layout : Layout} {level : Nat} {rest : List Char}

/-- The characters from where the elements `js` of a list are still to be read, up to what stands
after the list. -/
def ElementsLeft (layout : Layout) (level : Nat) (rest : List Char) (isFirst : Bool) :
    List Json → List Char → Prop
  | [], cs => ∃ ws, (∀ c ∈ ws, isBlank c) ∧ cs = ws ++ ']' :: rest
  | j :: js, cs =>
    cs = (if isFirst then [] else [',']) ++ (layout.gap (level + 1) ++
      (render layout (level + 1) j ++ (renderMoreElements layout level js ++ rest)))

/-- After the opening bracket all elements are still to be read. -/
theorem elementsLeft_renderElements (layout : Layout) (level : Nat) (rest : List Char)
    (js : List Json) :
    ElementsLeft layout level rest true js (renderElements layout level js ++ rest) := by
  cases js with
  | nil => exact ⟨[], List.forall_mem_nil _, rfl⟩
  | cons j js => simp [ElementsLeft, renderElements]

/-- After an element the others are still to be read. -/
theorem elementsLeft_renderMoreElements (layout : Layout) (level : Nat) (rest : List Char)
    (js : List Json) :
    ElementsLeft layout level rest false js (renderMoreElements layout level js ++ rest) := by
  cases js with
  | nil => exact ⟨layout.gap level, Layout.isBlank_of_mem_gap, by simp [renderMoreElements]⟩
  | cons j js => simp [ElementsLeft, renderMoreElements]

/-- The next element is found where one is still to be read. -/
theorem ElementsLeft.reads_nextElement {isFirst : Bool} {j : Json} {js : List Json} {cs : List Char}
    (h : ElementsLeft layout level rest isFirst (j :: js) cs) :
    Reads (nextElement isFirst) cs
      (render layout (level + 1) j ++ (renderMoreElements layout level js ++ rest)) true := by
  obtain ⟨c, tail, hcons, hc⟩ := exists_render_eq_cons layout (level + 1) j
  rw [show cs = _ from h, hcons, List.cons_append]
  cases isFirst with
  | true => exact reads_nextElement_first Layout.isBlank_of_mem_gap hc.not_blank hc.ne_close _
  | false => exact reads_nextElement_more Layout.isBlank_of_mem_gap hc.not_blank hc.ne_close _

/-- A reader of the first elements of a list does what decoding them does: it gives the same value
and leaves the same elements, or it fails. -/
def FollowsElements {α : Type} (layout : Layout) (level : Nat) (rest : List Char)
    (reader : Reader α) (before : List Char) : Except Cause (α × List Json) → Prop
  | .ok (a, left) => ∃ isFirst after,
      ElementsLeft layout level rest isFirst left after ∧ Reads reader before after a
  | .error _ => Rejects reader before

/-- Elements may be read after something that takes none. -/
theorem Reads.bind_elements {α β : Type} {reader : Reader α} {next : α → Reader β}
    {before between : List Char} {a : α} {result : Except Cause (β × List Json)}
    (h : Reads reader before between a)
    (h' : FollowsElements layout level rest (next a) between result) :
    FollowsElements layout level rest (reader >>= next) before result := by
  cases result with
  | error cause => exact h.bind_rejects h'
  | ok result =>
    obtain ⟨isFirst, after, hleft, hread⟩ := h'
    exact ⟨isFirst, after, hleft, h.bind hread⟩

/-- Elements may be read after one that is decoded. -/
theorem Follows.bind_elements {α β : Type} {reader : Reader α} {next : α → Reader β}
    {before between : List Char} {result : Except Cause α}
    {get : α → Except Cause (β × List Json)} (h : Follows reader before between result)
    (h' : ∀ a, FollowsElements layout level rest (next a) between (get a)) :
    FollowsElements layout level rest (reader >>= next) before (result >>= get) := by
  cases result with
  | error cause => exact Rejects.bind h
  | ok a => exact Reads.bind_elements h (h' a)

/-- What is read may be put behind a value. -/
theorem FollowsElements.pair {α β : Type} (a : α) {reader : Reader β} {before : List Char}
    {result : Except Cause (β × List Json)}
    (h : FollowsElements layout level rest reader before result) :
    FollowsElements layout level rest (do let b ← reader; pure (a, b)) before
      (do let (b, left) ← result; pure ((a, b), left)) := by
  cases result with
  | error cause => exact Rejects.bind h
  | ok result =>
    obtain ⟨isFirst, after, hleft, hread⟩ := h
    exact ⟨isFirst, after, hleft, hread.bind (Reads.pure _ after)⟩

/-- Blanks before a character that is none are passed at the end of a list. -/
theorem exists_afterBlanks_eq {ws : List Char} (hws : ∀ c ∈ ws, isBlank c) {c : Char}
    (hc : isBlank c = false) (cs : List Char) (p : Position) :
    ∃ q, Cursor.afterBlanks ⟨ws ++ c :: cs, p⟩ = ⟨c :: cs, q⟩ := by
  obtain ⟨q, hq⟩ := reads_blanks_append_cons hws hc cs p
  exact ⟨q, (Prod.mk.inj (Except.ok.inj hq)).2⟩

/-- Where something else than the closing bracket comes next a list does not end. -/
theorem exists_listEnd_eq_some {ws : List Char} (hws : ∀ c ∈ ws, isBlank c) {c : Char}
    (hblank : isBlank c = false) (hc : c ≠ ']') (cs : List Char) (p : Position) :
    ∃ cause cursor, listEnd ⟨ws ++ c :: cs, p⟩ = (some cause, cursor) := by
  obtain ⟨q, hq⟩ := exists_afterBlanks_eq hws hblank cs p
  simp only [listEnd, hq]
  split
  · next heq => cases heq
  · next heq => exact absurd (List.cons.inj heq).1 hc
  · split <;> exact ⟨_, _, rfl⟩
  · exact ⟨_, _, rfl⟩

/-- The closing bracket ends a list, after blanks. -/
theorem exists_listEnd_eq_none {ws : List Char} (hws : ∀ c ∈ ws, isBlank c) (rest : List Char)
    (p : Position) : ∃ q, listEnd ⟨ws ++ ']' :: rest, p⟩ = (none, ⟨rest, q⟩) := by
  obtain ⟨q, hq⟩ := exists_afterBlanks_eq hws (c := ']') rfl rest p
  exact ⟨q.after ']', by simp only [listEnd, hq]; rfl⟩

/-- **A list ends where no element is left**, and nowhere else. -/
theorem FollowsElements.closing {α β : Type} {reader : Reader α} {before : List Char}
    {result : Except Cause (α × List Json)}
    (h : FollowsElements layout level rest reader before result) (f : α → β) (cause : Cause) :
    Follows (closing listEnd (f <$> reader)) before rest (do
      let (a, left) ← result
      if left.isEmpty then pure (f a) else .error cause) := by
  cases result with
  | error cause => exact Rejects.closing listEnd (Rejects.map h f)
  | ok result =>
    obtain ⟨a, left⟩ := result
    obtain ⟨isFirst, after, hleft, hread⟩ := h
    have hread := hread.map f
    cases left with
    | nil =>
      obtain ⟨ws, hws, rfl⟩ := hleft
      intro p
      obtain ⟨q, hq⟩ := hread p
      obtain ⟨r, hr⟩ := exists_listEnd_eq_none hws rest q
      exact ⟨r, by simp only [Json.closing, hq, hr]⟩
    | cons j js =>
      obtain ⟨ws, c, cs, hws, hblank, hc, rfl⟩ : ∃ ws c cs, (∀ d ∈ ws, isBlank d) ∧
          isBlank c = false ∧ c ≠ ']' ∧ after = ws ++ c :: cs := by
        obtain ⟨c, cs, hcons, hc⟩ := exists_render_eq_cons layout (level + 1) j
        rw [show after = _ from hleft, hcons]
        cases isFirst with
        | true => exact ⟨_, c, _, Layout.isBlank_of_mem_gap, hc.not_blank, hc.ne_close, rfl⟩
        | false => exact ⟨[], ',', _, List.forall_mem_nil _, rfl, by decide, rfl⟩
      intro p
      obtain ⟨q, hq⟩ := hread p
      obtain ⟨cause, cursor, hend⟩ := exists_listEnd_eq_some hws hblank hc cs q
      exact ⟨.located cause cursor.ahead, by simp only [Json.closing, hq, hend]⟩

end

end Json

open Json

/-- On the text of every document a codec reads what it decodes. -/
def Codec.Agrees {α : Type} (codec : Codec α) (n : Nat) : Prop :=
  Agree n codec.read codec.decode

namespace Codec.Agrees

variable {α : Type} {codec : Codec α} {n : Nat}

/-- **A text is read as a value exactly when its document is decoded as the value**, in either
layout. -/
theorem parse_render_eq_ok_iff (h : codec.Agrees n) (hn : n ≤ greatestDepth) (layout : Layout)
    (j : Json) (a : α) :
    codec.parse (String.ofList (render layout 0 j)) = .ok a ↔ codec.decode j = .ok a := by
  have hread := h j layout 0 greatestDepth hn [] (List.forall_mem_nil _) [] endsNumber_nil
  rw [List.nil_append, List.append_nil] at hread
  rw [Codec.parse]
  cases hdecode : codec.decode j with
  | ok b =>
    rw [hdecode] at hread
    rw [whole_eq_ok hread, Except.ok.injEq, Except.ok.injEq]
  | error cause =>
    rw [hdecode] at hread
    obtain ⟨e, he⟩ := exists_whole_eq_error hread
    rw [he]
    exact iff_of_false nofun nofun

/-- Scalars are read as they are decoded, if neither containers nor numbers that are no words are. -/
theorem scalar {wanted : String} {write : α → Json} {decode : Json → Except Cause α}
    (hdecode : WordsOnly decode) (harray : ∀ js, ∃ cause, decode (.array js) = .error cause)
    (hobject : ∀ ms, ∃ cause, decode (.object ms) = .error cause) :
    (Codec.scalar wanted write decode).Agrees 0 := by
  intro j layout level depth _ ws hws rest hrest
  refine follows_dispatch hdecode (fun _ _ => rfl) (fun js => ?_) (fun ms => ?_) j hws hrest
  · obtain ⟨cause, hcause⟩ := harray js
    rw [hcause]
    exact rejects_failHere _ _
  · obtain ⟨cause, hcause⟩ := hobject ms
    rw [hcause]
    exact rejects_failHere _ _

/-- A text is read as it is decoded. -/
theorem text : Codec.text.Agrees 0 :=
  scalar ⟨fun _ => ⟨_, rfl⟩, fun _ _ => ⟨_, rfl⟩⟩ (fun _ => ⟨_, rfl⟩) fun _ => ⟨_, rfl⟩

/-- The absence of content is read as it is decoded. -/
theorem unit : Codec.unit.Agrees 0 :=
  scalar ⟨fun _ => ⟨_, rfl⟩, fun _ _ => ⟨_, rfl⟩⟩ (fun _ => ⟨_, rfl⟩) fun _ => ⟨_, rfl⟩

/-- A whole number below a bound is read as it is decoded. -/
theorem unsigned {wanted : String} {bound : Nat} {ofNat : Nat → α} {toNat : α → Nat}
    (hbound : bound ≤ UInt64.size) : (Codec.unsigned wanted bound ofNat toNat).Agrees 0 := by
  refine scalar ⟨fun _ => ⟨_, rfl⟩, fun i hi => ⟨_, if_neg fun h => hi ?_⟩⟩ (fun _ => ⟨_, rfl⟩)
    fun _ => ⟨_, rfl⟩
  simp only [UInt64.size] at hbound
  exact ⟨by omega, by omega⟩

/-! ## Lists -/

/-- **A list is read as it is decoded** if its elements are. -/
theorem list (h : codec.Agrees n) : codec.list.Agrees (n + 1) := by
  intro j layout level depth hdepth ws hws rest hrest
  obtain ⟨depth, rfl⟩ : ∃ m, depth = m + 1 := ⟨depth - 1, by omega⟩
  have hwords : WordsOnly codec.list.decode := ⟨fun _ => ⟨_, rfl⟩, fun _ _ => ⟨_, rfl⟩⟩
  refine follows_dispatch hwords (fun j hj => ?_) (fun js => ?_) (fun ms => ?_) j hws hrest
  · cases j <;> first | rfl | exact hj.elim
  · have hread : Follows (closing listEnd (elements (codec.read depth)))
        (renderElements layout level ((js.map fun j => (j, codec.decode j)).map Prod.fst) ++ rest)
        rest ((js.map fun j => (j, codec.decode j)).mapM Prod.snd) := by
      refine follows_elements (fun x hx rest hrest => ?_) rest
      obtain ⟨j, -, rfl⟩ := List.mem_map.1 hx
      exact h j layout (level + 1) depth (Nat.le_of_succ_le_succ hdepth) [] (List.forall_mem_nil _)
        rest hrest
    rw [List.mapM_map, List.map_map] at hread
    simp only [Function.comp_def, List.map_id'] at hread
    exact (reads_advance '[' _).bind_follows hread
  · exact rejects_failHere _ _

end Codec.Agrees

/-! ## Records -/

namespace Fields

/-- Each field is read as it is decoded. -/
def Agree (n : Nat) : {ρ δ : Type} → Fields ρ δ → Prop
  | _, _, .nil => True
  | _, _, .cons field rest => field.codec.Agrees n ∧ rest.Agree n

/-- The fields of a name are read as they are decoded. -/
theorem Agree.followAt {n : Nat} {ρ δ : Type} {fields : Fields ρ δ} (h : fields.Agree n)
    (name : String) (j : Json) {depth : Nat} (hdepth : n ≤ depth) (layout : Layout) (level : Nat)
    {rest : List Char} (hrest : EndsNumber rest) :
    fields.FollowAt depth name j (layout.afterColon ++ (render layout level j ++ rest)) rest := by
  induction fields with
  | nil => trivial
  | cons field others ih =>
    exact ⟨fun _ => h.1 j layout level depth hdepth _ Layout.isBlank_of_mem_afterColon rest hrest,
      ih h.2⟩

/-- No field takes a member of another name. -/
theorem slot_of_not_mem {ρ δ : Type} (fields : Fields ρ δ) (draft : δ) {name : String}
    (h : name ∉ fields.names) : fields.slot draft name = none := by
  induction fields with
  | nil => rfl
  | cons field rest ih =>
    rw [names, List.mem_cons, not_or] at h
    obtain ⟨a, draft⟩ := draft
    simp only [slot, h.1, if_false, ih draft h.2]
    rfl

/-- Every member is read into the draft as it is decoded into it; one that belongs to no field is
passed over. -/
theorem Agree.follows_readMember {n : Nat} {ρ δ : Type} {fields : Fields ρ δ} (h : fields.Agree n)
    (draft : δ) (m : String × Json) {depth : Nat} (hdepth : n ≤ depth) (layout : Layout)
    (level : Nat) {rest : List Char} (hrest : EndsNumber rest) :
    Follows (fields.readMember depth draft m.1)
      (':' :: (layout.afterColon ++ (render layout level m.2 ++ rest))) rest
      (fields.decodeMember draft m.1 m.2) := by
  by_cases hname : m.1 ∈ fields.names
  · exact Fields.follows_readMember (h.followAt m.1 m.2 hdepth layout level hrest) hname draft
  · rw [readMember, fields.slot_of_not_mem draft hname, fields.decodeMember_of_not_mem draft _ hname]
    refine (reads_colon _).bind ((reads_skipValue layout level m.2 ?_ hrest).bind ?_)
    · exact Layout.isBlank_of_mem_afterColon
    · exact Reads.pure draft rest

/-- **The elements of an array are read as they are decoded**, as the fields in order.

**Proof sketch.** Induction on the fields. Each takes the next element, or the value that it has
beyond the last one. -/
theorem Agree.follows_readElements {n : Nat} {ρ δ : Type} {fields : Fields ρ δ}
    (h : fields.Agree n) (wanted : String) {depth : Nat} (hdepth : n ≤ depth) {position : Nat}
    {js : List Json} {cs : List Char}
    {layout : Layout} {level : Nat} {rest : List Char}
    (hleft : ElementsLeft layout level rest (position == 0) js cs) :
    FollowsElements layout level rest (fields.readElements wanted depth position) cs
      (fields.decodeElements wanted position js) := by
  induction fields generalizing position js cs with
  | nil => exact ⟨_, cs, hleft, Reads.pure () cs⟩
  | cons field others ih =>
    obtain ⟨hfield, hothers⟩ := h
    rw [readElements]
    cases js with
    | nil =>
      obtain ⟨ws, hws, rfl⟩ := hleft
      rw [decodeElements]
      refine (reads_nextElement_end hws (position == 0) rest).bind_elements ?_
      cases field.beyond with
      | none => exact Rejects.bind (rejects_failFloating _ _)
      | some a =>
        refine (Reads.pure a _).bind_elements (FollowsElements.pair a (ih hothers ?_))
        exact ⟨[], List.forall_mem_nil _, rfl⟩
    | cons j js =>
      rw [decodeElements]
      refine hleft.reads_nextElement.bind_elements ?_
      have hvalue := hfield j layout (level + 1) depth hdepth [] (List.forall_mem_nil _) _
        (endsNumber_moreElements layout level js rest)
      refine hvalue.bind_elements fun a => (ih hothers ?_).pair a
      exact elementsLeft_renderMoreElements layout level rest js

end Fields

/-- **A record is read as it is decoded** if its fields are, from an object as well as from an
array. -/
theorem RecordType.agree {α : Type} {type : RecordType α} {n : Nat} (h : type.fields.Agree n) :
    Json.Agree (n + 1) type.read type.decode := by
  intro j layout level depth hdepth ws hws rest hrest
  obtain ⟨depth, rfl⟩ : ∃ m, depth = m + 1 := ⟨depth - 1, by omega⟩
  have hdepth := Nat.le_of_succ_le_succ hdepth
  have hwords : WordsOnly type.decode := ⟨fun _ => ⟨_, rfl⟩, fun _ _ => ⟨_, rfl⟩⟩
  refine follows_dispatch hwords (fun j hj => ?_) (fun js => ?_) (fun ms => ?_) j hws hrest
  · cases j <;> first | rfl | exact hj.elim
  · have hleft : ElementsLeft layout level rest (0 == 0) js (renderElements layout level js ++ rest) :=
      elementsLeft_renderElements layout level rest js
    have hread := h.follows_readElements type.wantedElements hdepth hleft
    exact (reads_advance '[' _).bind_follows (hread.closing type.ofRow _)
  · have hread : Follows (members (type.fields.readMember depth) type.fields.blank)
        (renderMembers layout level ms ++ rest) ('}' :: rest)
        (ms.foldlM (fun draft m => type.fields.decodeMember draft m.1 m.2) type.fields.blank) :=
      follows_members (fun m _ draft rest hrest =>
        h.follows_readMember draft m hdepth layout (level + 1) hrest) _ rest
    refine (reads_advance '{' _).bind_follows (Follows.closing_object (hread.bind fun draft _ => ?_))
    cases type.fields.finish draft with
    | ok row => exact Reads.pure _ _
    | error cause => exact rejects_failFloating cause _

/-- A record is read as it is decoded if its fields are. -/
theorem Codec.Agrees.record {α : Type} {type : RecordType α} {n : Nat}
    (h : type.fields.Agree n) : (Codec.record type).Agrees (n + 1) :=
  RecordType.agree h

/-! ## Alternatives -/

/-- On the text of every document the content of an alternative is read as it is decoded. -/
def Variant.Agrees {α : Type} (variant : Variant α) (n : Nat) : Prop :=
  Json.Agree n variant.read variant.decode

namespace Variant.Agrees

variable {α β : Type} {n : Nat}

/-- An alternative without content is read as it is decoded. -/
theorem bare (a : α) : (Variant.bare a).Agrees 0 :=
  fun j layout level depth hdepth ws hws rest hrest =>
    (Codec.Agrees.unit j layout level depth hdepth ws hws rest hrest).bind
      fun _ _ => Reads.pure a rest

/-- An alternative made of a record is read as it is decoded, if the fields of the record are. -/
theorem full (make : β → α) {type : RecordType β} (h : type.fields.Agree n) :
    (Variant.full make type).Agrees (n + 1) :=
  (RecordType.agree h).map make

end Variant.Agrees

namespace Variant

variable {α : Type} {variants : List (String × Variant α)} {n : Nat}

/-- An alternative that is chosen is one of those given. -/
theorem agrees_of_choose (h : ∀ x ∈ variants, x.2.Agrees n) {name : String} {variant : Variant α}
    (hchoose : choose variants name = .ok variant) : variant.Agrees n := by
  rw [choose] at hchoose
  cases hlookup : variants.lookup name with
  | none => rw [hlookup] at hchoose; cases hchoose
  | some found =>
    rw [hlookup] at hchoose
    obtain rfl := Except.ok.inj hchoose
    obtain ⟨earlier, later, rfl, -⟩ := List.lookup_eq_some_iff.1 hlookup
    exact h (name, found) (by simp)

/-- What starts neither as a text nor as an object is no alternative. -/
theorem rejects_readAny {c : Char} (hblank : isBlank c = false) (htext : c ≠ '"')
    (hobject : c ≠ '{') (depth : Nat) {ws : List Char} (hws : ∀ d ∈ ws, isBlank d)
    (cs : List Char) : Rejects (readAny variants depth) (ws ++ c :: cs) := by
  unfold readAny
  refine (reads_blanks_append_cons hws hblank cs).bind_rejects ((reads_peek _).bind_rejects ?_)
  simp only [List.head?_cons, htext, hobject, if_false]
  exact rejects_failAhead _ _

/-- A name is read as it is decoded. -/
theorem follows_readAny_text (name : String) (depth : Nat) {ws : List Char}
    (hws : ∀ c ∈ ws, isBlank c) (rest : List Char) :
    Follows (readAny variants depth) (ws ++ (quote name ++ rest)) rest
      (decodeAny variants (.text name)) := by
  rw [quote, List.cons_append, List.append_assoc]
  unfold readAny
  refine (reads_blanks_append_cons hws (by decide) _).bind_follows
    ((reads_peek _).bind_follows ?_)
  refine (reads_memberName name rest).bind_follows ?_
  refine (follows_settle (choose variants name) rest).bind fun variant _ => ?_
  cases variant.named with
  | ok a => exact Reads.pure a rest
  | error cause => exact rejects_failFloating cause rest

/-- An alternative that stands as an object is read as it is decoded. -/
theorem follows_readObject (h : ∀ x ∈ variants, x.2.Agrees n) (ms : List (String × Json))
    (layout : Layout) (level : Nat) {depth : Nat} (hdepth : n ≤ depth) (rest : List Char) :
    Follows (readObject variants depth) (renderMembers layout level ms ++ rest) rest
      (decodeAny variants (.object ms)) := by
  unfold readObject
  cases ms with
  | nil =>
    refine (reads_blanks_append_cons (List.forall_mem_nil _) (by decide) rest).bind_rejects
      ((reads_peek _).bind_rejects ?_)
    exact rejects_failAhead _ _
  | cons m ms =>
    obtain ⟨name, j⟩ := m
    rw [renderMembers, quote]
    simp only [List.cons_append, List.append_assoc]
    have hcontent : ∀ variant, choose variants name = .ok variant →
        Follows (variant.read depth) (layout.afterColon ++ (render layout (level + 1) j ++
          (renderMoreMembers layout level ms ++ rest))) (renderMoreMembers layout level ms ++ rest)
          (variant.decode j) := fun variant hchoose =>
      agrees_of_choose h hchoose j layout (level + 1) depth hdepth _
        Layout.isBlank_of_mem_afterColon _ (endsNumber_moreMembers layout level ms rest)
    refine (reads_blanks_append_cons Layout.isBlank_of_mem_gap (by decide) _).bind_follows
      ((reads_peek _).bind_follows ?_)
    refine (reads_memberName name _).bind_follows ?_
    have hchoice := follows_settle (choose variants name) (':' :: (layout.afterColon ++
      (render layout (level + 1) j ++ (renderMoreMembers layout level ms ++ rest))))
    -- what follows the content tells whether the member is the only one
    cases ms with
    | nil =>
      refine hchoice.bind fun variant hchoose => (reads_colon _).bind_follows ?_
      rw [← bind_pure (variant.decode j)]
      refine (hcontent variant hchoose).bind fun a _ => ?_
      rw [renderMoreMembers, List.append_assoc]
      refine (reads_blanks_append_cons Layout.isBlank_of_mem_gap (by decide) rest).bind
        ((reads_peek _).bind ?_)
      exact (reads_advance '}' rest).bind (Reads.pure a rest)
    | cons m ms =>
      refine hchoice.bind_rejects fun variant hchoose => (reads_colon _).bind_rejects ?_
      refine (hcontent variant hchoose).bind_rejects fun a _ => ?_
      rw [renderMoreMembers, List.cons_append]
      refine (reads_blanks_cons _ (by decide)).bind_rejects ((reads_peek _).bind_rejects ?_)
      exact rejects_failHere _ _

end Variant

/-- **A value with alternatives is read as it is decoded** if all its alternatives are. -/
theorem Codec.Agrees.variants {α : Type} {write : α → Json} {variants : List (String × Variant α)}
    {n : Nat} (h : ∀ x ∈ variants, x.2.Agrees n) :
    (Codec.variants write variants).Agrees (n + 1) := by
  intro j layout level depth hdepth ws hws rest _
  obtain ⟨depth, rfl⟩ : ∃ m, depth = m + 1 := ⟨depth - 1, by omega⟩
  show Follows (Variant.readAny variants (depth + 1)) _ rest (Variant.decodeAny variants j)
  have hother : (∀ name, j ≠ .text name) → (∀ ms, j ≠ .object ms) →
      Rejects (Variant.readAny variants (depth + 1)) (ws ++ (render layout level j ++ rest)) := by
    intro htext hobject
    obtain ⟨c, cs, hcons, hc⟩ := exists_render_eq_cons layout level j
    rw [hcons]
    refine Variant.rejects_readAny hc.not_blank (fun heq => ?_) (fun heq => ?_) _ hws _
    · obtain ⟨name, hname⟩ := hc.text heq
      exact htext name hname
    · obtain ⟨ms, hms⟩ := hc.object heq
      exact hobject ms hms
  cases j with
  | text name =>
    rw [render]
    exact Variant.follows_readAny_text name _ hws rest
  | object ms =>
    refine (reads_blanks_append_cons hws (by decide) _).bind_follows
      ((reads_peek _).bind_follows ?_)
    refine (reads_advance '{' _).bind_follows ?_
    exact Variant.follows_readObject h ms layout level (Nat.le_of_succ_le_succ hdepth) rest
  | null => exact hother nofun nofun
  | boolean b => exact hother nofun nofun
  | integer i => exact hother nofun nofun
  | double x => exact hother nofun nofun
  | array js => exact hother nofun nofun

end CopyTrial
