import CopyTrial.Json.Basic

/-!
# Canonical documents and free-form values

A free-form value is kept in canonical form: the members of each object ascend by name, each name
occurs once, and each integer fits a 64-bit word. Names are compared by code point, which is the
order of their UTF-8 bytes.

## Main definitions

* `Json.Canonical` — the form.
* `Json.canonical` — brings a document into the form; of two members of one name the last stays.
* `FreeForm` — a document in the form.

## Main results

* `Json.canonical_isCanonical` — the result of `canonical` has the form.
* `Json.Canonical.canonical_eq` — a document that has the form is left alone.
-/

set_option autoImplicit false

namespace CopyTrial

namespace Json

/-- Members in strictly ascending order of name. -/
def Ascending (members : List (String × Json)) : Prop :=
  members.Pairwise (·.1 < ·.1)

mutual

/-- Members ascend by name in every object, and every integer fits a word. -/
def Canonical : Json → Prop
  | .integer i => InWordRange i
  | .array elements => CanonicalElements elements
  | .object members => Ascending members ∧ CanonicalMembers members
  | _ => True

/-- Every element is canonical. -/
def CanonicalElements : List Json → Prop
  | [] => True
  | j :: rest => j.Canonical ∧ CanonicalElements rest

/-- The value of every member is canonical. -/
def CanonicalMembers : List (String × Json) → Prop
  | [] => True
  | (_, j) :: rest => j.Canonical ∧ CanonicalMembers rest

end

/-- Puts a member at its place among ascending members, instead of one of the same name. -/
def insertMember (name : String) (value : Json) : List (String × Json) → List (String × Json)
  | [] => [(name, value)]
  | (name', value') :: rest =>
    if name < name' then (name, value) :: (name', value') :: rest
    else if name = name' then (name, value) :: rest
    else (name', value') :: insertMember name value rest

mutual

/-- The canonical form of a document; an integer outside the word range becomes a double. -/
def canonical : Json → Json
  | .integer i => if InWordRange i then .integer i else .double (Float.ofInt i)
  | .array elements => .array (canonicalElements elements)
  | .object members => .object (canonicalMembers [] members)
  | .null => .null
  | .boolean b => .boolean b
  | .double x => .double x
  | .text s => .text s

/-- The canonical forms of elements. -/
def canonicalElements : List Json → List Json
  | [] => []
  | j :: rest => j.canonical :: canonicalElements rest

/-- Inserts members, in canonical form, one after the other into `done`. -/
def canonicalMembers (done : List (String × Json)) : List (String × Json) → List (String × Json)
  | [] => done
  | (name, j) :: rest => canonicalMembers (insertMember name j.canonical done) rest

end

/-- A name that is neither below another nor equal to it is above it. -/
theorem name_lt_of_not_lt {a b : String} (hlt : ¬ a < b) (hne : a ≠ b) : b < a := by
  apply Decidable.byContradiction
  intro h
  exact hne (String.le_antisymm (String.not_lt.1 h) (String.not_lt.1 hlt))

/-- Insertion adds no name but the given one. -/
theorem mem_insertMember {name : String} {value : Json} {members : List (String × Json)}
    {p : String × Json} (h : p ∈ insertMember name value members) :
    p = (name, value) ∨ p ∈ members := by
  induction members with
  | nil => simpa [insertMember] using h
  | cons m rest ih =>
    obtain ⟨name', value'⟩ := m
    simp only [insertMember] at h
    split at h
    · simpa using h
    · split at h
      · rcases List.mem_cons.1 h with h | h
        · exact .inl h
        · exact .inr (List.mem_cons_of_mem _ h)
      · rcases List.mem_cons.1 h with h | h
        · exact .inr (by simp [h])
        · exact (ih h).imp id (List.mem_cons_of_mem _)

/-- Insertion keeps members ascending. -/
theorem Ascending.insertMember {name : String} {value : Json} {members : List (String × Json)}
    (h : Ascending members) : Ascending (insertMember name value members) := by
  induction members with
  | nil => simp [Json.insertMember, Ascending]
  | cons m rest ih =>
    obtain ⟨name', value'⟩ := m
    have hrest : Ascending rest := (List.pairwise_cons.1 h).2
    have hfirst := (List.pairwise_cons.1 h).1
    simp only [Json.insertMember]
    split
    · next hlt =>
      refine List.pairwise_cons.2 ⟨fun p hp => ?_, h⟩
      rcases List.mem_cons.1 hp with rfl | hp
      · exact hlt
      · exact String.lt_trans hlt (hfirst p hp)
    · next hlt =>
      split
      · next heq =>
        subst heq
        exact List.pairwise_cons.2 ⟨hfirst, hrest⟩
      · next hne =>
        refine List.pairwise_cons.2 ⟨fun p hp => ?_, ih hrest⟩
        rcases mem_insertMember hp with rfl | hp
        · exact name_lt_of_not_lt hlt hne
        · exact hfirst p hp

/-- Insertion of a canonical value keeps values canonical. -/
theorem CanonicalMembers.insertMember {name : String} {value : Json}
    {members : List (String × Json)} (hv : value.Canonical) (h : CanonicalMembers members) :
    CanonicalMembers (insertMember name value members) := by
  induction members with
  | nil => exact ⟨hv, trivial⟩
  | cons m rest ih =>
    obtain ⟨name', value'⟩ := m
    simp only [Json.insertMember]
    split
    · exact ⟨hv, h⟩
    · split
      · exact ⟨hv, h.2⟩
      · exact ⟨h.1, ih h.2⟩

mutual

/-- The result of `canonical` is canonical. -/
theorem canonical_isCanonical : ∀ j : Json, j.canonical.Canonical
  | .integer i => by
    simp only [canonical]
    split
    · assumption
    · trivial
  | .array elements => canonicalElements_isCanonical elements
  | .object members => by
    simp only [canonical, Canonical]
    exact canonicalMembers_isCanonical members [] List.Pairwise.nil trivial
  | .null => trivial
  | .boolean _ => trivial
  | .double _ => trivial
  | .text _ => trivial

/-- The canonical forms of elements are canonical. -/
theorem canonicalElements_isCanonical :
    ∀ elements : List Json, CanonicalElements (canonicalElements elements)
  | [] => trivial
  | j :: rest => ⟨canonical_isCanonical j, canonicalElements_isCanonical rest⟩

/-- Inserting into canonical members gives canonical members. -/
theorem canonicalMembers_isCanonical : ∀ (members done : List (String × Json)),
    Ascending done → CanonicalMembers done →
    Ascending (canonicalMembers done members) ∧
      CanonicalMembers (canonicalMembers done members)
  | [], _, hs, hc => ⟨hs, hc⟩
  | (_, j) :: rest, _, hs, hc =>
    canonicalMembers_isCanonical rest _ hs.insertMember
      (hc.insertMember (canonical_isCanonical j))

end

/-- A member above all others is inserted at the end. -/
theorem insertMember_of_lt {name : String} {value : Json} {members : List (String × Json)}
    (h : ∀ p ∈ members, p.1 < name) :
    insertMember name value members = members ++ [(name, value)] := by
  induction members with
  | nil => rfl
  | cons m rest ih =>
    obtain ⟨name', value'⟩ := m
    have hlt : name' < name := h _ List.mem_cons_self
    have hne : name ≠ name' := fun he => String.lt_irrefl _ (he ▸ hlt)
    have hnot : ¬ name < name' := fun hl => String.lt_irrefl _ (String.lt_trans hl hlt)
    simp only [insertMember, hnot, hne, ↓reduceIte, List.cons_append]
    rw [ih fun p hp => h p (List.mem_cons_of_mem _ hp)]

mutual

/-- A canonical document is its own canonical form. -/
theorem Canonical.canonical_eq : ∀ {j : Json}, j.Canonical → j.canonical = j
  | .integer _, h => if_pos (show InWordRange _ from h)
  | .array _, h => congrArg Json.array (CanonicalElements.canonicalElements_eq h)
  | .object members, h => by
    have hs : Ascending ([] ++ members) := h.1
    simp only [canonical]
    rw [CanonicalMembers.canonicalMembers_eq hs h.2, List.nil_append]
  | .null, _ => rfl
  | .boolean _, _ => rfl
  | .double _, _ => rfl
  | .text _, _ => rfl

/-- Canonical elements are their own canonical forms. -/
theorem CanonicalElements.canonicalElements_eq :
    ∀ {elements : List Json}, CanonicalElements elements → canonicalElements elements = elements
  | [], _ => rfl
  | _ :: _, h => by
    simp only [canonicalElements]
    rw [h.1.canonical_eq, CanonicalElements.canonicalElements_eq h.2]

/-- Canonical members that ascend after those already there are appended as they stand. -/
theorem CanonicalMembers.canonicalMembers_eq :
    ∀ {members done : List (String × Json)}, Ascending (done ++ members) →
      CanonicalMembers members → canonicalMembers done members = done ++ members
  | [], done, _, _ => by simp [canonicalMembers]
  | (name, j) :: rest, done, hs, hc => by
    simp only [canonicalMembers]
    have hlt : ∀ p ∈ done, p.1 < name := fun p hp =>
      (List.pairwise_append.1 hs).2.2 p hp _ List.mem_cons_self
    rw [hc.1.canonical_eq, insertMember_of_lt hlt,
      CanonicalMembers.canonicalMembers_eq (by simpa using hs) hc.2]
    simp

end

end Json

/-- A free-form value: a document in canonical form. -/
structure FreeForm where
  /-- The document. -/
  json : Json
  canonical : json.Canonical

namespace FreeForm

/-- The free-form value that a document says. -/
def ofJson (j : Json) : FreeForm := ⟨j.canonical, j.canonical_isCanonical⟩

/-- The document of a free-form value says that value. -/
@[simp] theorem ofJson_json (v : FreeForm) : ofJson v.json = v := by
  cases v with
  | mk j h => simp [ofJson, h.canonical_eq]

end FreeForm

end CopyTrial
