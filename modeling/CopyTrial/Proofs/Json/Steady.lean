import CopyTrial.Proofs.Json.Record

/-!
# Written values are decoded again

A value that is written as a document and then kept as a free-form value is decoded from the
canonical form of the document, in which the members stand in another order. A record is decoded
again if each of its fields is, or was left out and has the value for that case.

## Main definitions

* `Codec.Steady` — a value is decoded again.
* `Field.Kept`, `Fields.Kept` — the values of fields can be told from what is written.
* `Field.found`, `Fields.Finds` — what is found of fields in the canonical form.
* `Fields.Writes` — the documents written for fields have a property.

## Main results

* `lookup_canonicalMembers` — canonical members have the canonical values of the members.
* `RecordType.finds_canonical` — what is found in the canonical form of a record.
* `Codec.Steady.record` — a record whose fields are kept is decoded again.
-/

set_option autoImplicit false

namespace CopyTrial

namespace Json

/-! ## Members in canonical order -/

/-- What is found among members is the first one of the name. -/
theorem lookup_cons_eq_ite (name : String) (m : String × Json) (members : List (String × Json)) :
    (m :: members).lookup name = if name = m.1 then some m.2 else members.lookup name := by
  rw [List.lookup_cons]
  by_cases h : name = m.1
  · rw [if_pos h, beq_iff_eq.2 h]
  · rw [if_neg h, beq_eq_false_iff_ne.2 h]

/-- What is found after an insertion. -/
theorem lookup_insertMember (name name' : String) (value : Json)
    (members : List (String × Json)) :
    (insertMember name value members).lookup name' =
      if name' = name then some value else members.lookup name' := by
  induction members with
  | nil => rw [insertMember, lookup_cons_eq_ite]
  | cons m members ih =>
    obtain ⟨first, v⟩ := m
    rw [insertMember]
    split
    · rw [lookup_cons_eq_ite]
    · next hlt =>
      split
      · next heq =>
        subst heq
        simp only [lookup_cons_eq_ite]
        split <;> rfl
      · next hne =>
        rw [lookup_cons_eq_ite, ih, lookup_cons_eq_ite]
        by_cases h : name' = name
        · subst h
          rw [if_neg hne, if_pos rfl, if_pos rfl]
        · rw [if_neg h, if_neg h]

/-- A name that belongs to no member is not found. -/
theorem lookup_eq_none_of_not_mem {name : String} {members : List (String × Json)}
    (h : name ∉ members.map Prod.fst) : members.lookup name = none := by
  induction members with
  | nil => rfl
  | cons m members ih =>
    rw [List.map_cons, List.mem_cons, not_or] at h
    rw [lookup_cons_eq_ite, if_neg h.1]
    exact ih h.2

/-- Where a name is not repeated, what is found is the value of the member with the name. -/
theorem lookup_eq_some_iff {name : String} {members : List (String × Json)}
    (h : (members.map Prod.fst).count name ≤ 1) {j : Json} :
    members.lookup name = some j ↔ (name, j) ∈ members := by
  induction members with
  | nil => simp
  | cons m members ih =>
    rw [lookup_cons_eq_ite, List.mem_cons]
    rw [List.map_cons] at h
    by_cases hname : name = m.1
    · have hrest : (name, j) ∉ members := by
        rw [hname, List.count_cons_self, Nat.succ_le_succ_iff, Nat.le_zero,
          List.count_eq_zero] at h
        exact fun hmem => h (hname ▸ List.mem_map_of_mem hmem)
      rw [if_pos hname, or_iff_left hrest, Option.some.injEq, Prod.ext_iff, and_iff_right hname,
        eq_comm]
    · rw [List.count_cons_of_ne (Ne.symm hname)] at h
      rw [if_neg hname, or_iff_right fun heq => hname (congrArg Prod.fst heq)]
      exact ih h

/-- What is found after members of different names have been inserted. -/
theorem lookup_canonicalMembers_append (name : String) {members : List (String × Json)}
    (h : (members.map Prod.fst).Nodup) (done : List (String × Json)) :
    (canonicalMembers done members).lookup name =
      ((members.lookup name).map canonical).or (done.lookup name) := by
  induction members generalizing done with
  | nil => simp [canonicalMembers]
  | cons m members ih =>
    obtain ⟨first, v⟩ := m
    obtain ⟨hfirst, hrest⟩ := List.nodup_cons.1 h
    rw [canonicalMembers, ih hrest, lookup_insertMember, lookup_cons_eq_ite]
    by_cases hname : name = first
    · subst hname
      rw [lookup_eq_none_of_not_mem hfirst]
      simp
    · rw [if_neg hname, if_neg hname]

/-- **Canonical members have the canonical values of the members.** -/
theorem lookup_canonicalMembers (name : String) {members : List (String × Json)}
    (h : (members.map Prod.fst).Nodup) :
    (canonicalMembers [] members).lookup name = (members.lookup name).map canonical := by
  rw [lookup_canonicalMembers_append name h, List.lookup_nil, Option.or_none]

/-- The names of ascending members are different. -/
theorem Ascending.nodup {members : List (String × Json)} (h : Ascending members) :
    (members.map Prod.fst).Nodup := by
  refine List.pairwise_map.2 (h.imp ?_)
  intro a b hlt heq
  exact String.lt_irrefl _ (heq ▸ hlt)

/-- A natural number of 64 bits fits a word. -/
theorem inWordRange_of_lt {n : Nat} (h : n < UInt64.size) : InWordRange n := by
  have hsize : UInt64.size = 18446744073709551616 := rfl
  constructor <;> omega

/-- Only the absence of a value has it as its canonical form. -/
theorem canonical_eq_null_iff {j : Json} : j.canonical = .null ↔ j = .null := by
  cases j with
  | integer i =>
    rw [canonical]
    split <;> simp
  | _ => simp [canonical]

end Json

open Json

/-! ## Scalars, lists and free-form values -/

namespace Codec

variable {α : Type}

/-- A value is decoded from the canonical form of the document that it is written as. -/
def Steady (codec : Codec α) (a : α) : Prop :=
  codec.decode (codec.write a).canonical = .ok a

/-- A text is decoded again. -/
theorem Steady.text (s : String) : Codec.text.Steady s := rfl

/-- A whole number below a bound is decoded again. -/
theorem Steady.unsigned {wanted : String} {bound : Nat} {ofNat : Nat → α} {toNat : α → Nat}
    (a : α) (hinverse : ofNat (toNat a) = a) (hlt : toNat a < bound)
    (hbound : bound ≤ UInt64.size) : (Codec.unsigned wanted bound ofNat toNat).Steady a := by
  have hrange : InWordRange (toNat a) := inWordRange_of_lt (Nat.lt_of_lt_of_le hlt hbound)
  have hfits : (0 : Int) ≤ toNat a ∧ (toNat a : Int) < bound := by omega
  have hwrite : (Codec.unsigned wanted bound ofNat toNat).write a = .integer (toNat a) := rfl
  have hdecode : (Codec.unsigned wanted bound ofNat toNat).decode (.integer (toNat a)) =
      if 0 ≤ (toNat a : Int) ∧ (toNat a : Int) < bound then
        Except.ok (ofNat (toNat a : Int).toNat)
      else .error (.wrongValue (.integer (toNat a)) wanted) := rfl
  rw [Steady, hwrite, Json.canonical, if_pos hrange, hdecode, if_pos hfits, Int.toNat_natCast,
    hinverse]

/-- A byte is decoded again. -/
theorem Steady.byte (b : UInt8) : Codec.byte.Steady b :=
  Steady.unsigned b UInt8.ofNat_toNat b.toNat_lt (by decide)

/-- A word of 64 bits is decoded again. -/
theorem Steady.word64 (w : UInt64) : Codec.word64.Steady w :=
  Steady.unsigned w UInt64.ofNat_toNat w.toNat_lt (Nat.le_refl _)

/-- A length is decoded again. -/
theorem Steady.size (w : UInt64) : Codec.size.Steady w :=
  Steady.unsigned w UInt64.ofNat_toNat w.toNat_lt (Nat.le_refl _)

/-- A list of values that are decoded again is itself. -/
theorem Steady.list {codec : Codec α} {as : List α} (h : ∀ a ∈ as, codec.Steady a) :
    codec.list.Steady as := by
  show (canonicalElements (as.map codec.write)).mapM codec.decode = .ok as
  induction as with
  | nil => rfl
  | cons a as ih =>
    obtain ⟨ha, has⟩ := List.forall_mem_cons.1 h
    rw [List.map_cons, canonicalElements, List.mapM_cons, show codec.decode _ = .ok a from ha,
      ih has]
    rfl

/-- A value that may be absent is decoded again if it is not written like its absence. -/
theorem Steady.optional {codec : Codec α} {v : Option α}
    (h : ∀ a, v = some a → codec.Steady a ∧ codec.write a ≠ .null) : codec.optional.Steady v := by
  cases v with
  | none => rfl
  | some a =>
    obtain ⟨hsteady, hnull⟩ := h a rfl
    have hcanonical := mt canonical_eq_null_iff.1 hnull
    show codec.optional.decode (codec.write a).canonical = _
    rw [codec.decode_optional_of_ne hcanonical, show codec.decode _ = .ok a from hsteady]
    rfl

/-- A free-form value is decoded again. -/
theorem Steady.freeForm (v : FreeForm) : Codec.freeForm.Steady v := by
  show Except.ok (FreeForm.ofJson v.json.canonical) = .ok v
  rw [v.canonical.canonical_eq, FreeForm.ofJson_json]

end Codec

/-! ## Records -/

/-- The value of a field can be told from what is written for it, or from nothing being written. -/
def Field.Kept {α : Type} (field : Field α) (a : α) : Prop :=
  if field.omits a then field.absent = some a else field.codec.Steady a

/-- A required field is kept if its value is decoded again. -/
theorem Field.Kept.required {α : Type} (name : String) {codec : Codec α} {a : α}
    (h : codec.Steady a) : (Field.required name codec).Kept a := h

/-- A field that may be left out is kept if its value is decoded again and not written like its
absence. -/
theorem Field.Kept.optional {α : Type} (name : String) {codec : Codec α} {v : Option α}
    (h : ∀ a, v = some a → codec.Steady a ∧ codec.write a ≠ .null) :
    (Field.optional name codec).Kept v := by
  cases v with
  | none => rfl
  | some a => exact Codec.Steady.optional h

/-- What is found under the name of a field in the canonical form of what is written. -/
def Field.found {α : Type} (field : Field α) (a : α) : Option Json :=
  if field.omits a then none else some (field.codec.write a).canonical

/-- A field that may be left out is found if it has a value. -/
theorem Field.found_optional {α : Type} (name : String) (codec : Codec α)
    (v : Option α) :
    (Field.optional name codec).found v = v.map fun a => (codec.write a).canonical := by
  cases v <;> rfl

namespace Fields

/-- The value of each field is kept. -/
def Kept : {ρ δ : Type} → Fields ρ δ → ρ → Prop
  | _, _, .nil, _ => True
  | _, _, .cons field rest, (a, b) => field.Kept a ∧ rest.Kept b

/-- Under the name of each field its own canonical document is found. -/
def Finds : {ρ δ : Type} → Fields ρ δ → (String → Option Json) → ρ → Prop
  | _, _, .nil, _, _ => True
  | _, _, .cons field rest, find, (a, b) => find field.name = field.found a ∧ rest.Finds find b

/-- The document of each field that is not left out has a property. -/
def Writes (P : Json → Prop) : {ρ δ : Type} → Fields ρ δ → ρ → Prop
  | _, _, .nil, _ => True
  | _, _, .cons field rest, (a, b) =>
    (field.omits a = false → P (field.codec.write a)) ∧ rest.Writes P b

/-- The value of a field that may be left out has a property if it does where it is written. -/
theorem writes_optional {α : Type} {P : Json → Prop} (name : String) {codec : Codec α}
    {v : Option α} (h : ∀ a, v = some a → P (codec.write a)) :
    (Field.optional name codec).omits v = false →
      P ((Field.optional name codec).codec.write v) := by
  intro homits
  cases v with
  | none => cases homits
  | some a => exact h a rfl

/-- A property of the documents of the fields is one of all members that are written. -/
theorem Writes.forall_mem {ρ δ : Type} {P : Json → Prop} {fields : Fields ρ δ} {row : ρ}
    (h : fields.Writes P row) : ∀ m ∈ fields.write row, P m.2 := by
  induction fields with
  | nil => simp [write]
  | cons field rest ih =>
    obtain ⟨a, b⟩ := row
    rw [write]
    split
    · exact ih h.2
    · next homits => exact List.forall_mem_cons.2 ⟨h.1 (Bool.not_eq_true _ ▸ homits), ih h.2⟩

/-- Members are written in the order of the fields. -/
theorem sublist_names {ρ δ : Type} (fields : Fields ρ δ) (row : ρ) :
    ((fields.write row).map Prod.fst).Sublist fields.names := by
  induction fields with
  | nil => exact .slnil
  | cons field rest ih =>
    obtain ⟨a, b⟩ := row
    rw [write, names]
    split
    · exact (ih b).cons _
    · exact (ih b).cons_cons _

/-- What is looked up among the members that are written. -/
theorem lookup_write_cons {α ρ δ : Type} (field : Field α) (rest : Fields ρ δ) (a : α) (b : ρ)
    (name : String) :
    ((Fields.cons field rest).write (a, b)).lookup name =
      if name = field.name ∧ field.omits a = false then some (field.codec.write a)
      else (rest.write b).lookup name := by
  rw [write]
  cases homits : field.omits a with
  | true => simp
  | false => simp [lookup_cons_eq_ite]

/-- Under the name of each field its own canonical document is found.

**Proof sketch.** Induction on the fields. The first one finds its own member or, if that is left
out, none at all, as no other field has its name; the others find what they did without it. -/
theorem finds_of_lookup {ρ δ : Type} {fields : Fields ρ δ} (hfields : fields.names.Nodup)
    {row : ρ} {find : String → Option Json}
    (hfind : ∀ name ∈ fields.names,
      find name = ((fields.write row).lookup name).map canonical) : fields.Finds find row := by
  induction fields with
  | nil => trivial
  | cons field rest ih =>
    obtain ⟨hfield, hrest⟩ := List.nodup_cons.1 hfields
    obtain ⟨a, b⟩ := row
    have hnone : (rest.write b).lookup field.name = none :=
      lookup_eq_none_of_not_mem fun hmem => hfield ((rest.sublist_names b).subset hmem)
    constructor
    · rw [hfind field.name List.mem_cons_self, lookup_write_cons, hnone, Field.found]
      cases field.omits a <;> simp
    · refine ih hrest fun name hname => ?_
      rw [hfind name (List.mem_cons_of_mem _ hname), lookup_write_cons, if_neg]
      rintro ⟨rfl, -⟩
      exact hfield hname

/-- What is found for fields that are kept says the record. -/
theorem Finds.toSays {ρ δ : Type} {fields : Fields ρ δ} {find : String → Option Json} {row : ρ}
    (hfind : fields.Finds find row) (h : fields.Kept row) : fields.Says find row := by
  induction fields with
  | nil => trivial
  | cons field rest ih =>
    obtain ⟨a, b⟩ := row
    refine ⟨?_, ih hfind.2 h.2⟩
    have hkept : field.Kept a := h.1
    rw [Field.Kept] at hkept
    rw [show find field.name = field.found a from hfind.1, Field.found]
    cases homits : field.omits a with
    | true => simpa [Field.Says, homits] using hkept
    | false => simpa [Field.Says, homits, Codec.Steady] using hkept

end Fields

/-- In the canonical form of a record each field finds its own canonical document. -/
theorem RecordType.finds_canonical {α : Type} (type : RecordType α)
    (hfields : type.fields.names.Nodup) (a : α) :
    type.fields.Finds (fun name => ((Codec.record type).write a).canonical.member? name)
      (type.toRow a) :=
  Fields.finds_of_lookup hfields fun name _ =>
    lookup_canonicalMembers name (hfields.sublist (type.fields.sublist_names (type.toRow a)))

/-- **A record whose fields are kept is decoded again.** -/
theorem Codec.Steady.record {α : Type} {type : RecordType α}
    (hfields : type.fields.names.Nodup) {a : α} (hrow : type.ofRow (type.toRow a) = a)
    (h : type.fields.Kept (type.toRow a)) : (Codec.record type).Steady a := by
  have hascending := (canonicalMembers_isCanonical (type.fields.write (type.toRow a)) []
    List.Pairwise.nil trivial).1
  have hfound := (type.finds_canonical hfields a).toSays h
  show type.decode (.object (canonicalMembers [] (type.fields.write (type.toRow a)))) = .ok a
  rw [type.decode_object_iff hfields hascending.nodup]
  exact ⟨type.toRow a, hfound, hrow⟩

end CopyTrial
