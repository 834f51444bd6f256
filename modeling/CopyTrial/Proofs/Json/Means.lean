import CopyTrial.Proofs.Json.RoundTrip
import CopyTrial.Proofs.Json.Steady

/-!
# Texts that mean a value

A document means a value for a codec if it is decoded as the value, and if its text is read as the
value too, in either layout. The law is proved for scalars, and for lists, records and alternatives
from what is in them, so it holds for whole reports and fixtures.

## Main definitions

* `Codec.Means` — a document means a value.
* `Field.Means`, `Fields.Means` — what is found under the names of fields means a record.
* `Fields.Keeps` — what is written for fields means their values.

## Main results

* `Codec.Means.list`, `Codec.Means.record`, `Codec.Means.variant` — documents that hold others.
* `Codec.Means.record_write` — a record whose fields are kept is written as a document that means
  it.
* `Codec.Means.parse_render`, `Codec.Means.parse_pretty` — the text of a document is read as the
  value that it means.

## Design

The law counts how many containers may be needed around what is read, so the depth of a document
need not be looked at again.
-/

set_option autoImplicit false

namespace CopyTrial

open Json

/-- A document means a value: it is decoded as the value, and so is its text, wherever it stands, if
`n` containers may still be nested there. -/
structure Codec.Means {α : Type} (codec : Codec α) (n : Nat) (j : Json) (a : α) : Prop where
  plain : j.Plain
  decode_eq : codec.decode j = .ok a
  reads : ∀ (layout : Layout) (level depth : Nat), n ≤ depth → ∀ ws : List Char,
    (∀ c ∈ ws, isBlank c) → ∀ rest, EndsNumber rest →
      Reads (codec.read depth) (ws ++ (render layout level j ++ rest)) rest a

namespace Codec.Means

variable {α : Type} {codec : Codec α} {n : Nat} {j : Json} {a : α}

/-- More containers may be nested. -/
theorem mono (h : codec.Means n j a) {n' : Nat} (hn : n ≤ n') : codec.Means n' j a where
  plain := h.plain
  decode_eq := h.decode_eq
  reads layout level depth hdepth := h.reads layout level depth (Nat.le_trans hn hdepth)

/-- **The text of a document is read as the value that it means**, in either layout. -/
theorem parse_render (h : codec.Means n j a) (hn : n ≤ greatestDepth) (layout : Layout) :
    codec.parse (String.ofList (render layout 0 j)) = .ok a := by
  have hread := h.reads layout 0 greatestDepth hn [] (List.forall_mem_nil _) [] endsNumber_nil
  rw [List.nil_append, List.append_nil] at hread
  exact whole_eq_ok hread

/-- A value that is written with one member a line is read back. -/
theorem parse_pretty (h : codec.Means n (codec.write a) a) (hn : n ≤ greatestDepth) :
    codec.parse (codec.pretty a) = .ok a :=
  h.parse_render hn .pretty

/-! ## Scalars -/

/-- A scalar means what it is decoded as. -/
theorem scalar {wanted : String} {write : α → Json} {decode : Json → Except Cause α}
    (hplain : j.Plain) (hj : IsScalar j) (h : decode j = .ok a) :
    (Codec.scalar wanted write decode).Means 0 j a where
  plain := hplain
  decode_eq := h
  reads layout level _ _ ws hws rest hrest := by
    refine reads_dispatch_scalar hplain hj hws layout level hrest ?_
    rw [h]
    exact Reads.pure a rest

/-- A text means itself. -/
theorem text (s : String) : Codec.text.Means 0 (Codec.text.write s) s :=
  scalar (.text s) trivial rfl

/-- A truth value means itself. -/
theorem flag (b : Bool) : Codec.flag.Means 0 (Codec.flag.write b) b :=
  scalar (.boolean b) trivial rfl

/-- A whole number below a bound means itself. -/
theorem unsigned {wanted : String} {bound : Nat} {ofNat : Nat → α} {toNat : α → Nat} (a : α)
    (hinverse : ofNat (toNat a) = a) (hlt : toNat a < bound) (hbound : bound ≤ UInt64.size) :
    (Codec.unsigned wanted bound ofNat toNat).Means 0
      ((Codec.unsigned wanted bound ofNat toNat).write a) a := by
  have hdecode : (Codec.unsigned wanted bound ofNat toNat).decode (.integer (toNat a)) = .ok a :=
    (decode_unsigned_eq_ok_iff _ _).2 ⟨toNat a, rfl, hlt, hinverse⟩
  exact scalar (.integer (inWordRange_of_lt (Nat.lt_of_lt_of_le hlt hbound))) trivial hdecode

/-- A byte means itself. -/
theorem byte (b : UInt8) : Codec.byte.Means 0 (Codec.byte.write b) b :=
  unsigned b UInt8.ofNat_toNat b.toNat_lt (by decide)

/-- A word of 32 bits means itself. -/
theorem word32 (w : UInt32) : Codec.word32.Means 0 (Codec.word32.write w) w :=
  unsigned w UInt32.ofNat_toNat w.toNat_lt (by decide)

/-- A word of 64 bits means itself. -/
theorem word64 (w : UInt64) : Codec.word64.Means 0 (Codec.word64.write w) w :=
  unsigned w UInt64.ofNat_toNat w.toNat_lt (Nat.le_refl _)

/-- A length means itself. -/
theorem size (w : UInt64) : Codec.size.Means 0 (Codec.size.write w) w :=
  unsigned w UInt64.ofNat_toNat w.toNat_lt (Nat.le_refl _)

/-! ## Lists and absent values -/

/-- **A list of documents means the list of what they mean.** -/
theorem list {pairs : List (Json × α)} (h : ∀ x ∈ pairs, codec.Means n x.1 x.2) :
    codec.list.Means (n + 1) (.array (pairs.map Prod.fst)) (pairs.map Prod.snd) where
  plain := .array (List.forall_mem_map.2 fun x hx => (h x hx).plain)
  decode_eq := by
    show (pairs.map Prod.fst).mapM codec.decode = .ok (pairs.map Prod.snd)
    induction pairs with
    | nil => rfl
    | cons x pairs ih =>
      obtain ⟨hx, hpairs⟩ := List.forall_mem_cons.1 h
      rw [List.map_cons, List.mapM_cons, hx.decode_eq, ih hpairs]
      rfl
  reads layout level depth hdepth ws hws rest _ := by
    obtain ⟨depth, rfl⟩ : ∃ m, depth = m + 1 := ⟨depth - 1, by omega⟩
    refine reads_dispatch_array hws ((reads_advance '[' _).bind ?_)
    refine reads_elements (fun x hx rest hrest => ?_) rest
    exact (h x hx).reads layout (level + 1) depth (by omega) [] (List.forall_mem_nil _) rest hrest

/-- A list of values that are written as documents that mean them. -/
theorem list_write {as : List α} (h : ∀ a ∈ as, codec.Means n (codec.write a) a) :
    codec.list.Means (n + 1) (codec.list.write as) as := by
  have hpairs : ∀ x ∈ as.map fun a => (codec.write a, a), codec.Means n x.1 x.2 :=
    List.forall_mem_map.2 h
  have hlist := list hpairs
  simp only [List.map_map, Function.comp_def, List.map_id'] at hlist
  exact hlist

/-- What stands for an absent value means that there is none. -/
theorem optional_none : codec.optional.Means 0 .null none where
  plain := .null
  decode_eq := rfl
  reads _ _ _ _ ws hws rest _ := by
    refine (reads_blanks_append_cons hws (by decide) _).bind ((reads_peek _).bind ?_)
    exact (reads_advance 'n' _).bind ((reads_word ['u', 'l', 'l'] rest).bind (Reads.pure none rest))

/-- A document that means a value also means that there is one. -/
theorem optional_some (h : codec.Means n j a) (hj : j ≠ .null) :
    codec.optional.Means n j (some a) where
  plain := h.plain
  decode_eq := by
    rw [decode_optional_of_ne codec hj, h.decode_eq]
    rfl
  reads layout level depth hdepth ws hws rest hrest := by
    obtain ⟨c, cs, hcons, hc⟩ := exists_render_eq_cons layout level j
    have hne : c ≠ 'n' := fun heq => hj (hc.null heq)
    have hread := h.reads layout level depth hdepth [] (List.forall_mem_nil _) rest hrest
    rw [hcons, List.cons_append] at hread ⊢
    refine (reads_blanks_append_cons hws hc.not_blank _).bind ((reads_peek _).bind ?_)
    simp only [List.head?_cons, Option.some.injEq, hne, if_false]
    exact hread.map some

/-- A value that may be absent is written as a document that means it, if it is not written like its
absence. -/
theorem optional_write {v : Option α}
    (h : ∀ a, v = some a → codec.Means n (codec.write a) a ∧ codec.write a ≠ .null) :
    codec.optional.Means n (codec.optional.write v) v := by
  cases v with
  | none => exact optional_none.mono (Nat.zero_le n)
  | some a => exact optional_some (h a rfl).1 (h a rfl).2

/-- A free-form value means itself, as long as its text can be told from doubles and its containers
are not nested too deep. -/
theorem freeForm {v : FreeForm} (hplain : v.json.Plain) (hdepth : v.json.depth ≤ n) :
    Codec.freeForm.Means n (Codec.freeForm.write v) v where
  plain := hplain
  decode_eq := congrArg Except.ok v.ofJson_json
  reads layout level depth hn ws hws rest hrest := by
    have hread := (reads_value layout depth level hplain (Nat.le_trans hdepth hn) hws hrest).map
      FreeForm.ofJson
    rw [FreeForm.ofJson_json] at hread
    exact hread

end Codec.Means

/-! ## Records -/

namespace Json

/-- Among members of different names each one is found under its own. -/
theorem lookup_eq_some_of_mem {members : List (String × Json)}
    (hmembers : (members.map Prod.fst).Nodup) {m : String × Json} (hm : m ∈ members) :
    members.lookup m.1 = some m.2 :=
  (lookup_eq_some_iff (List.nodup_iff_count_le_one.1 hmembers m.1)).2 hm

end Json

/-- What is found under the name of a field means its value. -/
def Field.Means {α : Type} (field : Field α) (n : Nat) (found : Option Json) (a : α) : Prop :=
  match found with
  | some j => field.codec.Means n j a
  | none => field.absent = some a

namespace Fields

/-- What is found under the names of fields means a record. -/
def Means (n : Nat) : {ρ δ : Type} → Fields ρ δ → (String → Option Json) → ρ → Prop
  | _, _, .nil, _, _ => True
  | _, _, .cons field rest, find, (a, b) =>
    field.Means n (find field.name) a ∧ rest.Means n find b

/-- Documents that mean a record also say it. -/
theorem Means.says {n : Nat} {ρ δ : Type} {fields : Fields ρ δ} {find : String → Option Json}
    {row : ρ} (h : fields.Means n find row) : fields.Says find row := by
  induction fields with
  | nil => trivial
  | cons field rest ih =>
    obtain ⟨a, b⟩ := row
    refine ⟨?_, ih h.2⟩
    have hfield : field.Means n (find field.name) a := h.1
    cases hfind : find field.name with
    | none => rwa [hfind] at hfield
    | some j =>
      rw [hfind] at hfield
      exact Codec.Means.decode_eq hfield

/-- Documents that mean the values of fields are plain. -/
theorem Means.plain {n : Nat} {ρ δ : Type} {fields : Fields ρ δ} {find : String → Option Json}
    {row : ρ} (h : fields.Means n find row) {name : String} (hname : name ∈ fields.names) {j : Json}
    (hj : find name = some j) : j.Plain := by
  induction fields with
  | nil => cases hname
  | cons field rest ih =>
    obtain ⟨a, b⟩ := row
    rcases List.mem_cons.1 hname with rfl | hname
    · have hfield : field.Means n (find field.name) a := h.1
      rw [hj] at hfield
      exact Codec.Means.plain hfield
    · exact ih h.2 hname

/-- On the characters `before` the codec of each field of the given name does what decoding the
document `j` does. -/
def FollowAt (depth : Nat) (name : String) (j : Json) (before after : List Char) :
    {ρ δ : Type} → Fields ρ δ → Prop
  | _, _, .nil => True
  | _, _, .cons field rest =>
    (name = field.name → Follows (field.codec.read depth) before after (field.codec.decode j)) ∧
      rest.FollowAt depth name j before after

/-- **A member is read into the draft as it is decoded into it**, if this is so of the value of the
field of its name.

**Proof sketch.** Induction on the fields. The first field of the name takes the member, unless it
has a value already; then neither reading nor decoding goes on. -/
theorem follows_readMember {ρ δ : Type} {fields : Fields ρ δ} {depth : Nat} {name : String}
    {j : Json} {before after : List Char} (h : fields.FollowAt depth name j before after)
    (hname : name ∈ fields.names) (draft : δ) :
    Follows (fields.readMember depth draft name) (':' :: before) after
      (fields.decodeMember draft name j) := by
  obtain ⟨reader, hslot, hread⟩ : ∃ reader, fields.slot draft name = some reader ∧
      Follows (reader depth) (':' :: before) after (fields.decodeMember draft name j) := by
    induction fields with
    | nil => cases hname
    | cons field rest ih =>
      obtain ⟨a, draft⟩ := draft
      simp only [slot, decodeMember]
      by_cases heq : name = field.name
      · rw [if_pos heq, if_pos heq]
        cases a with
        | some a => exact ⟨_, rfl, rejects_failFloating _ _⟩
        | none =>
          refine ⟨_, rfl, (reads_colon before).bind_follows ?_⟩
          exact (h.1 heq).bind fun a _ => Reads.pure _ after
      · rw [if_neg heq, if_neg heq]
        obtain ⟨reader, hslot, hread⟩ := ih h.2 ((List.mem_cons.1 hname).resolve_left heq) draft
        rw [hslot]
        exact ⟨_, rfl, hread.bind fun draft _ => Reads.pure _ after⟩
  rw [readMember, hslot]
  exact hread

/-- Where what is found under a name means the value of the field, the field is read as it is
decoded. -/
theorem Means.followAt {n : Nat} {ρ δ : Type} {fields : Fields ρ δ} {find : String → Option Json}
    {row : ρ} (h : fields.Means n find row) {name : String} {j : Json} (hj : find name = some j)
    {depth : Nat} (hdepth : n ≤ depth) (layout : Layout) (level : Nat) {rest : List Char}
    (hrest : EndsNumber rest) :
    fields.FollowAt depth name j (layout.afterColon ++ (render layout level j ++ rest)) rest := by
  induction fields with
  | nil => trivial
  | cons field others ih =>
    obtain ⟨a, b⟩ := row
    refine ⟨?_, ih h.2⟩
    rintro rfl
    have hfield : field.Means n (find field.name) a := h.1
    rw [hj] at hfield
    have hmeans : field.codec.Means n j a := hfield
    rw [hmeans.decode_eq]
    exact hmeans.reads layout level depth hdepth _ Layout.isBlank_of_mem_afterColon rest hrest

end Fields

/-- **An object means a record** if what is found under the names of the fields does, and there are
no other members. -/
theorem Codec.Means.record {α : Type} {type : RecordType α} (hfields : type.fields.names.Nodup)
    {ms : List (String × Json)} (hms : (ms.map Prod.fst).Nodup)
    (hnames : ∀ m ∈ ms, m.1 ∈ type.fields.names) {n : Nat} {a : α}
    (h : type.fields.Means n (fun name => ms.lookup name) (type.toRow a))
    (hrow : type.ofRow (type.toRow a) = a) : (Codec.record type).Means (n + 1) (.object ms) a where
  plain := .object fun m hm => h.plain (hnames m hm) (lookup_eq_some_of_mem hms hm)
  decode_eq := (type.decode_object_iff hfields hms a).2 ⟨_, h.says, hrow⟩
  reads layout level depth hdepth ws hws rest _ := by
    obtain ⟨depth, rfl⟩ : ∃ m, depth = m + 1 := ⟨depth - 1, by omega⟩
    obtain ⟨draft, hfold, hfinish⟩ := (type.fields.exists_draft_iff hfields _).2
      ⟨fun name _ => List.nodup_iff_count_le_one.1 hms name, h.says⟩
    have hread : Follows (members (type.fields.readMember depth) type.fields.blank)
        (renderMembers layout level ms ++ rest) ('}' :: rest)
        (ms.foldlM (fun draft m => type.fields.decodeMember draft m.1 m.2) type.fields.blank) := by
      refine follows_members (fun m hm draft rest hrest => ?_) _ rest
      refine Fields.follows_readMember ?_ (hnames m hm) draft
      exact h.followAt (lookup_eq_some_of_mem hms hm) (Nat.le_of_succ_le_succ hdepth) layout
        (level + 1) hrest
    rw [hfold] at hread
    refine reads_dispatch_object hws ((reads_advance '{' _).bind (Reads.closing_object ?_))
    refine Reads.bind hread ?_
    rw [hfinish]
    show Reads (pure (type.ofRow (type.toRow a))) _ _ a
    rw [hrow]
    exact Reads.pure a _

/-! ## Written records -/

/-- What is written for a field, or that nothing is, means its value. -/
def Field.Keeps {α : Type} (field : Field α) (n : Nat) (a : α) : Prop :=
  if field.omits a then field.absent = some a else field.codec.Means n (field.codec.write a) a

namespace Field.Keeps

variable {α : Type} {codec : Codec α} {n : Nat}

/-- A required field is kept by a document that means its value. -/
theorem required (name : String) {a : α} (h : codec.Means n (codec.write a) a) :
    (Field.required name codec).Keeps n a := h

/-- A field with a value for the case that it is left out is kept by a document that means its
value. -/
theorem defaulting (name : String) (value : α) {a : α} (h : codec.Means n (codec.write a) a) :
    (Field.defaulting name codec value).Keeps n a := h

/-- A field that may be without a value is kept if the value is not written like its absence. -/
theorem nullable (name : String) {v : Option α}
    (h : ∀ a, v = some a → codec.Means n (codec.write a) a ∧ codec.write a ≠ .null) :
    (Field.nullable name codec).Keeps n v := Codec.Means.optional_write h

/-- A field that may be left out is kept if its value is not written like its absence. -/
theorem optional (name : String) {v : Option α}
    (h : ∀ a, v = some a → codec.Means n (codec.write a) a ∧ codec.write a ≠ .null) :
    (Field.optional name codec).Keeps n v := by
  cases v with
  | none => rfl
  | some a => exact Codec.Means.optional_write h

end Field.Keeps

namespace Fields

/-- What is written for each field means its value. -/
def Keeps (n : Nat) : {ρ δ : Type} → Fields ρ δ → ρ → Prop
  | _, _, .nil, _ => True
  | _, _, .cons field rest, (a, b) => field.Keeps n a ∧ rest.Keeps n b

/-- Under the names of fields that are kept, documents are found that mean the record.

**Proof sketch.** Induction on the fields. The first one finds its own member or, if that is left
out, none at all, as no other field has its name. -/
theorem Keeps.means {n : Nat} {ρ δ : Type} {fields : Fields ρ δ} (hfields : fields.names.Nodup)
    {row : ρ} (h : fields.Keeps n row) {find : String → Option Json}
    (hfind : ∀ name ∈ fields.names, find name = (fields.write row).lookup name) :
    fields.Means n find row := by
  induction fields with
  | nil => trivial
  | cons field rest ih =>
    obtain ⟨hfield, hrest⟩ := List.nodup_cons.1 hfields
    obtain ⟨a, b⟩ := row
    have hnone : (rest.write b).lookup field.name = none :=
      lookup_eq_none_of_not_mem fun hmem => hfield ((rest.sublist_names b).subset hmem)
    constructor
    · have hkeeps : field.Keeps n a := h.1
      rw [hfind field.name List.mem_cons_self, lookup_write_cons, hnone]
      rw [Field.Keeps] at hkeeps
      cases homits : field.omits a with
      | true => simpa [Field.Means, homits] using hkeeps
      | false => simpa [Field.Means, homits] using hkeeps
    · refine ih hrest h.2 fun name hname => ?_
      rw [hfind name (List.mem_cons_of_mem _ hname), lookup_write_cons, if_neg]
      rintro ⟨rfl, -⟩
      exact hfield hname

end Fields

/-- **A record whose fields are kept is written as a document that means it.** -/
theorem Codec.Means.record_write {α : Type} {type : RecordType α}
    (hfields : type.fields.names.Nodup) {n : Nat} {a : α}
    (h : type.fields.Keeps n (type.toRow a)) (hrow : type.ofRow (type.toRow a) = a) :
    (Codec.record type).Means (n + 1) ((Codec.record type).write a) a := by
  have hsublist := type.fields.sublist_names (type.toRow a)
  exact Codec.Means.record hfields (hfields.sublist hsublist)
    (fun m hm => hsublist.subset (List.mem_map_of_mem hm)) (h.means hfields fun _ _ => rfl) hrow

/-! ## Alternatives -/

namespace Codec.Means

variable {α β : Type} {write : α → Json} {variants : List (String × Variant α)} {name : String}
  {n : Nat} {j : Json}

/-- The name of an alternative means the value that it stands for. -/
theorem variant_name {variant : Variant α} {a : α} (h : variants.lookup name = some variant)
    (hnamed : variant.named = .ok a) : (Codec.variants write variants).Means 0 (.text name) a where
  plain := .text name
  decode_eq := by
    show (Variant.choose variants name >>= fun variant => variant.named) = _
    rw [Variant.choose, h]
    exact hnamed
  reads layout level _ _ ws hws rest _ := by
    rw [render, quote, List.cons_append, List.append_assoc]
    refine (reads_blanks_append_cons hws (by decide) _).bind ((reads_peek _).bind ?_)
    refine (reads_memberName name rest).bind ?_
    rw [Variant.choose, h]
    refine (Reads.pure variant rest).bind ?_
    rw [hnamed]
    exact Reads.pure a rest

/-- **An object with the name of an alternative means the alternative** with the record that its
content means. -/
theorem variant {make : β → α} {type : RecordType β} {b : β}
    (h : variants.lookup name = some (.full make type)) (hmeans : (Codec.record type).Means n j b) :
    (Codec.variants write variants).Means (n + 1) (.object [(name, j)]) (make b) where
  plain := .object (by simpa using hmeans.plain)
  decode_eq := by
    show (Variant.choose variants name >>= fun variant => variant.decode j) = _
    rw [Variant.choose, h]
    show make <$> (Codec.record type).decode j = _
    rw [hmeans.decode_eq]
    rfl
  reads layout level depth hdepth ws hws rest _ := by
    obtain ⟨depth, rfl⟩ : ∃ m, depth = m + 1 := ⟨depth - 1, by omega⟩
    have hcontent := hmeans.reads layout (level + 1) depth (Nat.le_of_succ_le_succ hdepth)
      layout.afterColon Layout.isBlank_of_mem_afterColon _
      (endsNumber_moreMembers layout level [] rest)
    rw [render, renderMembers, quote]
    simp only [List.cons_append, List.append_assoc]
    refine (reads_blanks_append_cons hws (by decide) _).bind ((reads_peek _).bind ?_)
    refine (reads_advance '\x7b' _).bind ?_
    refine (reads_blanks_append_cons Layout.isBlank_of_mem_gap (by decide) _).bind
      ((reads_peek _).bind ?_)
    refine (reads_memberName name _).bind ?_
    rw [Variant.choose, h]
    refine (Reads.pure _ _).bind ((reads_colon _).bind ((hcontent.map make).bind ?_))
    rw [renderMoreMembers, List.append_assoc]
    refine (reads_blanks_append_cons Layout.isBlank_of_mem_gap (by decide) rest).bind
      ((reads_peek _).bind ?_)
    exact (reads_advance '\x7d' rest).bind (Reads.pure (make b) rest)

end Codec.Means

end CopyTrial
