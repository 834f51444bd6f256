import CopyTrial.Proofs.Json.Steady

/-!
# Objects that say the same

What an object says as a record lies in the members of the fields' names alone. Their order does not
matter, nor do members of other names; but a field that must be there may not be missing, and none
may occur twice.

## Main definitions

* `Json.Varies` — the members of an object are given ones in any order, with others of unknown
  names.
* `Json.Defective` — a required member is missing, or a known one occurs twice.
* `Fields.required` — the names of the fields that may not be left out of an object.

## Main results

* `RecordType.decode_of_varies` — an object says what its known members do.
* `RecordType.decode_ne_ok_of_defective` — a defective object is no record.
-/

set_option autoImplicit false

namespace CopyTrial

namespace Json

/-! ## Members in any order -/

/-- The members of an object are those of `written` in any order, together with any others whose
names are not known. -/
def Varies (known : List String) (members written : List (String × Json)) : Prop :=
  ∃ extras : List (String × Json), (∀ m ∈ extras, m.1 ∉ known) ∧ members.Perm (written ++ extras)

/-- A required member is missing, or a known one occurs more than once. -/
def Defective (required known : List String) (members : List (String × Json)) : Prop :=
  (∃ name ∈ required, name ∉ members.map Prod.fst) ∨
    ∃ name ∈ known, 2 ≤ (members.map Prod.fst).count name

namespace Varies

variable {known : List String} {members written : List (String × Json)} {name : String}

/-- Members as they are written. -/
theorem refl (known : List String) (written : List (String × Json)) :
    Varies known written written :=
  ⟨[], List.forall_mem_nil _, by rw [List.append_nil]⟩

/-- Members and others, all in reverse. -/
theorem reverse {known : List String} (written extras : List (String × Json))
    (hextras : ∀ m ∈ extras, m.1 ∉ known) :
    Varies known (written ++ extras).reverse written :=
  ⟨extras, hextras, List.reverse_perm _⟩

/-- A known member occurs as often as it is written. -/
theorem count_eq (h : Varies known members written) (hname : name ∈ known) :
    (members.map Prod.fst).count name = (written.map Prod.fst).count name := by
  obtain ⟨extras, hextras, hperm⟩ := h
  have hnone : (extras.map Prod.fst).count name = 0 := by
    rw [List.count_eq_zero, List.mem_map]
    rintro ⟨m, hm, rfl⟩
    exact hextras m hm hname
  rw [(hperm.map Prod.fst).count_eq name, List.map_append, List.count_append, hnone, Nat.add_zero]

/-- **Under a known name the written member is found**, if it is written once at most. -/
theorem lookup_eq (h : Varies known members written) (hname : name ∈ known)
    (hcount : (written.map Prod.fst).count name ≤ 1) :
    members.lookup name = written.lookup name := by
  have hcount' : (members.map Prod.fst).count name ≤ 1 := (h.count_eq hname).symm ▸ hcount
  obtain ⟨extras, hextras, hperm⟩ := h
  refine Option.ext fun j => ?_
  rw [lookup_eq_some_iff hcount, lookup_eq_some_iff hcount', hperm.mem_iff, List.mem_append]
  exact or_iff_left fun hmem => hextras _ hmem hname

end Varies

end Json

open Json

/-! ## Records -/

namespace Fields

/-- The names of the fields that have no value when an object has no such member. -/
def required : {ρ δ : Type} → Fields ρ δ → List String
  | _, _, .nil => []
  | _, _, .cons field rest =>
    if field.absent.isNone then field.name :: rest.required else rest.required

/-- What members say of a record lies in what is found under the names of its fields. -/
theorem Says.congr {ρ δ : Type} {fields : Fields ρ δ} {find find' : String → Option Json} {row : ρ}
    (h : fields.Says find row) (hfind : ∀ name ∈ fields.names, find' name = find name) :
    fields.Says find' row := by
  induction fields with
  | nil => trivial
  | cons field rest ih =>
    obtain ⟨a, b⟩ := row
    obtain ⟨hname, hnames⟩ := List.forall_mem_cons.1 hfind
    exact ⟨hname.symm ▸ h.1, ih h.2 hnames⟩

/-- Of a record something is said about each field that may not be left out. -/
theorem Says.ne_none {ρ δ : Type} {fields : Fields ρ δ} {find : String → Option Json} {row : ρ}
    (h : fields.Says find row) {name : String} (hname : name ∈ fields.required) :
    find name ≠ none := by
  induction fields with
  | nil => cases hname
  | cons field rest ih =>
    obtain ⟨a, b⟩ := row
    rw [required] at hname
    split at hname
    · next hnone =>
      rcases List.mem_cons.1 hname with rfl | hname
      · intro hfind
        have hsaid : field.Says (find field.name) a := h.1
        rw [hfind] at hsaid
        have habsent : field.absent = some a := hsaid
        rw [habsent] at hnone
        cases hnone
      · exact ih h.2 hname
    · exact ih h.2 hname

end Fields

namespace RecordType

variable {α : Type} (type : RecordType α)

/-- **An object says what its known members do**, in whatever order they stand and whatever others
there are. -/
theorem decode_of_varies (hfields : type.fields.names.Nodup) {members written : List (String × Json)}
    (h : Varies type.fields.names members written) (hwritten : (written.map Prod.fst).Nodup)
    {a : α} (hrow : type.ofRow (type.toRow a) = a)
    (hsaid : type.fields.Says (fun name => written.lookup name) (type.toRow a)) :
    type.decode (.object members) = .ok a := by
  have hcount : ∀ name, (written.map Prod.fst).count name ≤ 1 :=
    List.nodup_iff_count_le_one.1 hwritten
  rw [type.decode_object_eq_ok_iff hfields]
  refine ⟨fun name hname => (h.count_eq hname).symm ▸ hcount name, _, ?_, hrow⟩
  exact hsaid.congr fun name hname => h.lookup_eq hname (hcount name)

/-- **A defective object is no record.** -/
theorem decode_ne_ok_of_defective (hfields : type.fields.names.Nodup)
    {members : List (String × Json)}
    (h : Defective type.fields.required type.fields.names members) (a : α) :
    type.decode (.object members) ≠ .ok a := by
  intro hdecode
  obtain ⟨hcount, row, hsaid, -⟩ := (type.decode_object_eq_ok_iff hfields members a).1 hdecode
  rcases h with ⟨name, hname, hmissing⟩ | ⟨name, hname, htwice⟩
  · exact hsaid.ne_none hname (lookup_eq_none_of_not_mem hmissing)
  · exact absurd (hcount name hname) (by omega)

end RecordType

end CopyTrial
