import Mathlib.Data.List.Nodup
import CopyTrial.Json.Variant

/-!
# What records say

An object decodes to a record exactly when, for each field, the member of its name says the
field's value and there is no second one. The order of the members does not matter, nor do members
of other names.

## Main definitions

* `Field.Says`, `Fields.Says` — what the members of an object, looked up by name, say of a field
  and of a record.

## Main results

* `RecordType.decode_object_eq_ok_iff` — when an object decodes to a record.

## Design

The draft of a record is taken apart into the drafts of its fields, each of which takes members by
a step of its own. Each field then needs to be followed through the members alone.
-/

set_option autoImplicit false

namespace CopyTrial

open Json

/-! ## Decoding an object -/

namespace Field

variable {α : Type}

/-- What is found under the name of a field says its value. -/
def Says (field : Field α) (found : Option Json) (a : α) : Prop :=
  match found with
  | some j => field.codec.decode j = .ok a
  | none => field.absent = some a

/-- Takes a member into the draft of one field. -/
def step (field : Field α) (a : Option α) (m : String × Json) : Except Cause (Option α) :=
  if m.1 = field.name then
    match a with
    | some _ => .error (.repeatedField m.1)
    | none => some <$> field.codec.decode m.2
  else .ok a

/-- A member of another name leaves the draft of a field as it is. -/
theorem step_of_ne (field : Field α) (a : Option α) {m : String × Json}
    (h : m.1 ≠ field.name) : field.step a m = .ok a := if_neg h

/-- The first member of its name gives a field its value. -/
theorem step_none_of_eq (field : Field α) {m : String × Json} (h : m.1 = field.name) :
    field.step none m = some <$> field.codec.decode m.2 := if_pos h

/-- A second member of its name is an error. -/
theorem step_some_of_eq (field : Field α) (v : α) {m : String × Json} (h : m.1 = field.name) :
    field.step (some v) m = .error (.repeatedField m.1) := if_pos h

/-- A field that has its value keeps it as long as there is no member of its name. -/
theorem foldlM_step_some_eq_ok_iff (field : Field α) {ms : List (String × Json)} (v : α)
    (a : Option α) :
    ms.foldlM field.step (some v) = .ok a ↔ field.name ∉ ms.map Prod.fst ∧ a = some v := by
  induction ms with
  | nil =>
    show Except.ok (some v) = Except.ok a ↔ _
    simp [eq_comm]
  | cons m ms ih =>
    rw [List.foldlM_cons, List.map_cons, List.mem_cons, not_or]
    by_cases hname : m.1 = field.name
    · rw [field.step_some_of_eq v hname]
      exact iff_of_false nofun fun h => h.1.1 hname.symm
    · rw [field.step_of_ne (some v) hname, and_assoc, and_iff_right (Ne.symm hname)]
      exact ih

/-- The draft of a field holds what the member of its name decodes to; there is one such member at
most. -/
theorem foldlM_step_eq_ok_iff (field : Field α) {ms : List (String × Json)} (a : Option α) :
    ms.foldlM field.step none = .ok a ↔
      (ms.map Prod.fst).count field.name ≤ 1 ∧
        match ms.lookup field.name with
        | some j => ∃ v, field.codec.decode j = .ok v ∧ a = some v
        | none => a = none := by
  induction ms with
  | nil =>
    show Except.ok none = Except.ok a ↔ 0 ≤ 1 ∧ a = none
    simp [eq_comm]
  | cons m ms ih =>
    rw [List.foldlM_cons, List.lookup_cons, List.map_cons]
    by_cases hname : m.1 = field.name
    · have hcount : (field.name :: ms.map Prod.fst).count field.name ≤ 1 ↔
          field.name ∉ ms.map Prod.fst := by
        rw [List.count_cons_self, Nat.succ_le_succ_iff, Nat.le_zero, List.count_eq_zero]
      rw [field.step_none_of_eq hname, hname, hcount, beq_self_eq_true]
      cases hdecode : field.codec.decode m.2 with
      | error e => simp [Functor.map, Except.map, bind, Except.bind, hdecode]
      | ok v =>
        show ms.foldlM field.step (some v) = .ok a ↔ _
        rw [field.foldlM_step_some_eq_ok_iff]
        simp [hdecode]
    · have hne : (field.name == m.1) = false := beq_eq_false_iff_ne.2 (Ne.symm hname)
      rw [field.step_of_ne none hname, hne, List.count_cons_of_ne hname]
      exact ih

end Field

namespace Fields

/-- The names of the fields. -/
def names : {ρ δ : Type} → Fields ρ δ → List String
  | _, _, .nil => []
  | _, _, .cons field rest => field.name :: rest.names

/-- Under the name of each field something is found that says its value. -/
def Says : {ρ δ : Type} → Fields ρ δ → (String → Option Json) → ρ → Prop
  | _, _, .nil, _, _ => True
  | _, _, .cons field rest, find, (a, b) => field.Says (find field.name) a ∧ rest.Says find b

/-- A member that belongs to no field leaves the draft as it is. -/
theorem decodeMember_of_not_mem {ρ δ : Type} (fields : Fields ρ δ) (draft : δ) {name : String}
    (j : Json) (h : name ∉ fields.names) : fields.decodeMember draft name j = .ok draft := by
  induction fields with
  | nil => rfl
  | cons field rest ih =>
    rw [names, List.mem_cons, not_or] at h
    obtain ⟨a, draft⟩ := draft
    simp only [decodeMember, h.1, if_false, ih draft h.2]
    rfl

/-- A member is taken by one field, or by the others. -/
theorem decodeMember_cons_eq_ok_iff {α ρ δ : Type} (field : Field α) (rest : Fields ρ δ)
    (hrest : field.name ∉ rest.names) (a a' : Option α) (draft draft' : δ) (m : String × Json) :
    (Fields.cons field rest).decodeMember (a, draft) m.1 m.2 = .ok (a', draft') ↔
      field.step a m = .ok a' ∧ rest.decodeMember draft m.1 m.2 = .ok draft' := by
  simp only [decodeMember]
  by_cases hname : m.1 = field.name
  · have hother := rest.decodeMember_of_not_mem draft m.2 (hname ▸ hrest)
    rw [if_pos hname, hother]
    cases a with
    | some v => simp [field.step_some_of_eq v hname]
    | none =>
      rw [field.step_none_of_eq hname]
      cases field.codec.decode m.2 <;>
        simp [Functor.map, Except.map, bind, Except.bind, pure, Except.pure]
  · rw [if_neg hname, field.step_of_ne a hname]
    cases rest.decodeMember draft m.1 m.2 <;> simp [bind, Except.bind, pure, Except.pure]

/-- The members of an object are taken by one field and by the others, each for itself. -/
theorem foldlM_decodeMember_cons {α ρ δ : Type} (field : Field α) (rest : Fields ρ δ)
    (hrest : field.name ∉ rest.names) (a a' : Option α) (draft draft' : δ)
    (ms : List (String × Json)) :
    ms.foldlM (fun draft m => (Fields.cons field rest).decodeMember draft m.1 m.2) (a, draft) =
        .ok (a', draft') ↔
      ms.foldlM field.step a = .ok a' ∧
        ms.foldlM (fun draft m => rest.decodeMember draft m.1 m.2) draft = .ok draft' := by
  induction ms generalizing a draft with
  | nil => simp [pure, Except.pure]
  | cons m ms ih =>
    simp only [List.foldlM_cons]
    have hstep := decodeMember_cons_eq_ok_iff field rest hrest a
    cases hone : (Fields.cons field rest).decodeMember (a, draft) m.1 m.2 with
    | ok pair =>
      obtain ⟨a₁, draft₁⟩ := pair
      obtain ⟨hfield, hothers⟩ := (hstep a₁ draft draft₁ m).1 hone
      rw [hfield, hothers]
      exact ih a₁ draft₁
    | error e =>
      constructor
      · intro h
        cases h
      · rintro ⟨h, h'⟩
        cases hfield : field.step a m with
        | error e => rw [hfield] at h; cases h
        | ok a₁ =>
          cases hothers : rest.decodeMember draft m.1 m.2 with
          | error e => rw [hothers] at h'; cases h'
          | ok draft₁ =>
            rw [(hstep a₁ draft draft₁ m).2 ⟨hfield, hothers⟩] at hone
            cases hone

/-- A draft is finished by finishing one field and the others. -/
theorem finish_cons_eq_ok_iff {α ρ δ : Type} (field : Field α) (rest : Fields ρ δ)
    (a : Option α) (draft : δ) (v : α) (row : ρ) :
    (Fields.cons field rest).finish (a, draft) = .ok (v, row) ↔
      a.or field.absent = some v ∧ rest.finish draft = .ok row := by
  rw [finish]
  cases a.or field.absent with
  | none => simp
  | some w =>
    cases rest.finish draft <;> simp [bind, Except.bind, pure, Except.pure]

/-- **The draft of an object finishes as a record exactly when the members say the record**, and no
field has two of them.

**Proof sketch.** Induction on the fields: each field takes the members of its own name alone, so
the draft and its finish fall apart into those of the first field and those of the others. -/
theorem exists_draft_iff {ρ δ : Type} (fields : Fields ρ δ) (hfields : fields.names.Nodup)
    {ms : List (String × Json)} (row : ρ) :
    (∃ draft, ms.foldlM (fun draft m => fields.decodeMember draft m.1 m.2) fields.blank =
        .ok draft ∧ fields.finish draft = .ok row) ↔
      (∀ name ∈ fields.names, (ms.map Prod.fst).count name ≤ 1) ∧
        fields.Says (fun name => ms.lookup name) row := by
  induction fields with
  | nil =>
    have hfold : ms.foldlM (fun draft m => Fields.nil.decodeMember draft m.1 m.2) () =
        .ok () := by
      induction ms with
      | nil => rfl
      | cons m ms ih => exact ih
    exact ⟨fun _ => ⟨List.forall_mem_nil _, trivial⟩, fun _ => ⟨(), hfold, rfl⟩⟩
  | cons field rest ih =>
    obtain ⟨hfield, hrest⟩ := List.nodup_cons.1 hfields
    obtain ⟨v, row⟩ := row
    have hone : (∃ a, ms.foldlM field.step none = .ok a ∧ a.or field.absent = some v) ↔
        (ms.map Prod.fst).count field.name ≤ 1 ∧ field.Says (ms.lookup field.name) v := by
      simp only [field.foldlM_step_eq_ok_iff, Field.Says]
      cases ms.lookup field.name with
      | none => simp [and_assoc]
      | some j =>
        constructor
        · rintro ⟨_, ⟨hcount, w, hw, rfl⟩, hor⟩
          obtain rfl : w = v := Option.some.inj hor
          exact ⟨hcount, hw⟩
        · exact fun ⟨hcount, hv⟩ => ⟨some v, ⟨hcount, v, hv, rfl⟩, rfl⟩
    rw [Says, names, List.forall_mem_cons, and_and_and_comm, ← hone, ← ih hrest row]
    constructor
    · rintro ⟨⟨a, draft⟩, hfold, hfinish⟩
      rw [blank, foldlM_decodeMember_cons field rest hfield] at hfold
      rw [finish_cons_eq_ok_iff] at hfinish
      exact ⟨⟨a, hfold.1, hfinish.1⟩, ⟨draft, hfold.2, hfinish.2⟩⟩
    · rintro ⟨⟨a, hfold, hfinish⟩, ⟨draft, hfold', hfinish'⟩⟩
      refine ⟨(a, draft), ?_, ?_⟩
      · rw [blank, foldlM_decodeMember_cons field rest hfield]
        exact ⟨hfold, hfold'⟩
      · rw [finish_cons_eq_ok_iff]
        exact ⟨hfinish, hfinish'⟩

end Fields

/-- **When an object decodes to a record**: no field occurs twice, and the members say the record. -/
theorem RecordType.decode_object_eq_ok_iff {α : Type} (type : RecordType α)
    (hfields : type.fields.names.Nodup) (ms : List (String × Json)) (a : α) :
    type.decode (.object ms) = .ok a ↔
      (∀ name ∈ type.fields.names, (ms.map Prod.fst).count name ≤ 1) ∧
        ∃ row, type.fields.Says (fun name => ms.lookup name) row ∧ type.ofRow row = a := by
  simp only [← exists_and_left, ← and_assoc, ← type.fields.exists_draft_iff hfields]
  rw [decode]
  cases hfold : ms.foldlM (fun draft m => type.fields.decodeMember draft m.1 m.2)
      type.fields.blank with
  | error e => simp [bind, Except.bind]
  | ok draft =>
    cases hfinish : type.fields.finish draft <;>
      simp [bind, Except.bind, pure, Except.pure, hfinish]

/-- When an object without repeated members decodes to a record. -/
theorem RecordType.decode_object_iff {α : Type} (type : RecordType α)
    (hfields : type.fields.names.Nodup) {ms : List (String × Json)}
    (hms : (ms.map Prod.fst).Nodup) (a : α) :
    type.decode (.object ms) = .ok a ↔
      ∃ row, type.fields.Says (fun name => ms.lookup name) row ∧ type.ofRow row = a := by
  rw [type.decode_object_eq_ok_iff hfields]
  exact and_iff_right fun name _ => List.nodup_iff_count_le_one.1 hms name

/-! ## What single fields say -/

/-- A record is decoded from an array or from an object. -/
theorem RecordType.isContainer_of_decode {α : Type} {type : RecordType α} {j : Json} {a : α}
    (h : type.decode j = .ok a) : (∃ js, j = .array js) ∨ ∃ ms, j = .object ms := by
  cases j with
  | array js => exact .inl ⟨js, rfl⟩
  | object ms => exact .inr ⟨ms, rfl⟩
  | _ => cases h

/-- What does not stand for an absent value is decoded as a value. -/
theorem Codec.decode_optional_of_ne {α : Type} (codec : Codec α) {j : Json} (h : j ≠ .null) :
    codec.optional.decode j = some <$> codec.decode j := by
  cases j <;> first | rfl | exact absurd rfl h

/-- A required field has the value that its member decodes to. -/
theorem Field.says_required_iff {α : Type} (name : String) (codec : Codec α)
    (found : Option Json) (a : α) :
    (Field.required name codec).Says found a ↔
      ∃ j, found = some j ∧ codec.decode j = .ok a := by
  cases found with
  | none => simp [Field.Says, Field.required]
  | some j => simp [Field.Says, Field.required]

/-- A field that may be left out has no value, or the one that its member decodes to. -/
theorem Field.says_optional_iff {α : Type} (name : String) (codec : Codec α)
    (found : Option Json) (v : Option α) :
    (Field.optional name codec).Says found v ↔
      ((found = none ∨ found = some .null) ∧ v = none) ∨
        ∃ j a, found = some j ∧ j ≠ .null ∧ codec.decode j = .ok a ∧ v = some a := by
  have hdecode : ∀ j : Json, j ≠ .null →
      (codec.optional.decode j = .ok v ↔ ∃ a, codec.decode j = .ok a ∧ v = some a) := by
    intro j hj
    rw [codec.decode_optional_of_ne hj]
    cases codec.decode j <;> simp [Functor.map, Except.map, eq_comm]
  cases found with
  | none =>
    show some none = some v ↔ _
    simp [eq_comm]
  | some j =>
    by_cases hj : j = .null
    · subst hj
      show Except.ok none = Except.ok v ↔ _
      simp [eq_comm]
    · show codec.optional.decode j = .ok v ↔ _
      rw [hdecode j hj]
      simp [hj]

namespace Codec

/-- Only a text is decoded as one. -/
theorem decode_text_eq_ok_iff (j : Json) (s : String) :
    Codec.text.decode j = .ok s ↔ j = .text s := by
  cases j with
  | text s' =>
    show Except.ok s' = Except.ok s ↔ _
    simp
  | _ => simp [Codec.text, scalar]

/-- Only an integer below the bound is decoded as a whole number. -/
theorem decode_unsigned_eq_ok_iff {α : Type} {wanted : String} {bound : Nat} {ofNat : Nat → α}
    {toNat : α → Nat} (j : Json) (a : α) :
    (unsigned wanted bound ofNat toNat).decode j = .ok a ↔
      ∃ n : Nat, j = .integer n ∧ n < bound ∧ ofNat n = a := by
  cases j with
  | integer i =>
    show (if 0 ≤ i ∧ i < bound then Except.ok (ofNat i.toNat) else .error _) = .ok a ↔ _
    split
    · next h =>
      obtain ⟨n, rfl⟩ := Int.eq_ofNat_of_zero_le h.1
      constructor
      · intro ha
        exact ⟨n, rfl, Int.ofNat_lt.1 h.2, Except.ok.inj ha⟩
      · rintro ⟨m, hm, -, rfl⟩
        rw [Int.ofNat_inj.1 (Json.integer.inj hm), Int.toNat_natCast]
    · next h =>
      simp only [reduceCtorEq, false_iff, not_exists, not_and, Json.integer.injEq]
      rintro n rfl hn
      exact absurd ⟨Int.natCast_nonneg n, Int.ofNat_lt.2 hn⟩ h
  | _ => simp [unsigned, scalar]

/-- Only the absence of content is decoded as such. -/
theorem decode_unit_eq_ok_iff (j : Json) (u : Unit) : Codec.unit.decode j = .ok u ↔ j = .null := by
  cases j <;> simp [Codec.unit, scalar]

/-- What is found among alternatives without content is the one of the name. -/
theorem lookup_bare_eq_some {α : Type} {name : α → String} {values : List α} {n : String}
    {variant : Variant α}
    (h : (values.map fun a => (name a, Variant.bare a)).lookup n = some variant) :
    ∃ a, name a = n ∧ variant = .bare a := by
  induction values with
  | nil => cases h
  | cons a values ih =>
    rw [List.map_cons, List.lookup_cons] at h
    by_cases hname : n = name a
    · rw [beq_iff_eq.2 hname] at h
      exact ⟨a, hname.symm, (Option.some.inj h).symm⟩
    · rw [beq_eq_false_iff_ne.2 hname] at h
      exact ih h

/-- A name is decoded from itself, or from an object that holds nothing under it. -/
theorem decode_names_eq_ok {α : Type} {name : α → String} {values : List α} {j : Json} {a : α}
    (h : (Codec.names name values).decode j = .ok a) :
    j = .text (name a) ∨ j = .object [(name a, .null)] := by
  have hchoose : ∀ {n : String} {get : Variant α → Except Cause α},
      (do let variant ← Variant.choose (values.map fun a => (name a, Variant.bare a)) n
          get variant) = .ok a →
        ∃ b, name b = n ∧ get (.bare b) = .ok a := by
    intro n get hget
    rw [Variant.choose] at hget
    cases hfind : (values.map fun a => (name a, Variant.bare a)).lookup n with
    | none => rw [hfind] at hget; cases hget
    | some variant =>
      obtain ⟨b, hb, rfl⟩ := lookup_bare_eq_some hfind
      rw [hfind] at hget
      exact ⟨b, hb, hget⟩
  cases j with
  | text n =>
    obtain ⟨b, rfl, hb⟩ := hchoose h
    obtain rfl := Except.ok.inj hb
    exact .inl rfl
  | object ms =>
    match ms, h with
    | [(n, content)], h =>
      obtain ⟨b, rfl, hb⟩ := hchoose h
      have hb : (do Codec.unit.decode content; pure b : Except Cause α) = .ok a := hb
      cases hunit : Codec.unit.decode content with
      | error e => rw [hunit] at hb; cases hb
      | ok u =>
        rw [hunit] at hb
        obtain rfl := Except.ok.inj hb
        rw [(decode_unit_eq_ok_iff content u).1 hunit]
        exact .inr rfl
  | _ => cases h

end Codec

end CopyTrial
