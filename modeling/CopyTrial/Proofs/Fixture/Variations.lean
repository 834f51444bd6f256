import CopyTrial.Fixture
import CopyTrial.Proofs.Except
import CopyTrial.Proofs.Json.Agreement
import CopyTrial.Proofs.Json.Variation

/-!
# Fixtures as they may be written

A fixture is what its document says, however the document is written: the members of its objects may
stand in any order and among others of unknown names, and the source and the fill of a scenario may
be left out where they are the ones that hold then. A document in which anything else is left out,
or anything known is said twice, is no fixture, whatever else it says.

## Main definitions

* `Expectation.ToldBy`, `Scenario.ToldBy`, `Fixture.ToldBy` — a document tells a verdict, a scenario,
  a fixture.
* `Expectation.Flawed`, `Scenario.Flawed`, `Fixture.Flawed` — somewhere in a document a member is
  missing, or is there twice.

## Main results

* `Fixture.toldBy_write` — the document that is written for a fixture tells it.
* `Fixture.decode_of_toldBy`, `Fixture.decode_ne_ok_of_flawed` — what is decoded from documents.
* `Fixture.parse_variations` — what is read from their texts.

## Design

Texts are read as their documents are decoded, so the order of members, the members that are passed
over and those that are repeated need to be looked at in documents only.
-/

set_option autoImplicit false

namespace CopyTrial

open Json

/-! ## Documents that tell a fixture -/

/-- A member is there, or it is left out, which it may be under a condition. -/
def Json.Leavable (condition : Prop) (m : String × Json) (part : List (String × Json)) : Prop :=
  part = [m] ∨ condition ∧ part = []

/-- A document tells a verdict. -/
inductive Expectation.ToldBy : Expectation → Json → Prop where
  | pass : ToldBy .pass (.text "pass")
  | fail {r : DivergenceRecord} {members : List (String × Json)}
    (hmembers : Varies ["index", "actual", "expected"] members
      [("index", .integer r.index.toNat), ("actual", .integer r.actual.toNat),
        ("expected", .integer r.expected.toNat)]) :
    ToldBy (.fail r) (.object [("fail", .object members)])

/-- A document tells a scenario. Its source and its fill may be left out. -/
inductive Scenario.ToldBy : Scenario → Json → Prop where
  | object {s : Scenario} {members source fill : List (String × Json)} {expect : Json}
    (hsource : Leavable (s.source = "hello world") ("source", .text s.source) source)
    (hfill : Leavable (s.fill = 0) ("fill", .integer s.fill.toNat) fill)
    (hexpect : s.expect.ToldBy expect)
    (hmembers : Varies ["name", "primitive", "source", "fill", "expect"] members
      (("name", .text s.name) :: ("primitive", .text s.primitive) ::
        (source ++ (fill ++ [("expect", expect)])))) :
    ToldBy s (.object members)

/-- A document tells a fixture. -/
inductive Fixture.ToldBy : Fixture → Json → Prop where
  | object {f : Fixture} {members : List (String × Json)} {cases : List Json}
    (hcases : List.Forall₂ Scenario.ToldBy f.cases cases)
    (hmembers : Varies ["version", "family", "cases"] members
      [("version", .text f.version), ("family", .text f.family), ("cases", .array cases)]) :
    ToldBy f (.object members)

/-! ## Documents that tell none -/

/-- In the object of a verdict something is missing, or is there twice. -/
inductive Expectation.Flawed : Json → Prop where
  | twice {members : List (String × Json)} (h : 2 ≤ (members.map Prod.fst).count "fail") :
    Flawed (.object members)
  | fail {members : List (String × Json)}
    (h : Defective ["index", "actual", "expected"] ["index", "actual", "expected"] members) :
    Flawed (.object [("fail", .object members)])

/-- In the object of a scenario, or of its verdict, something is missing, or is there twice. -/
inductive Scenario.Flawed : Json → Prop where
  | object {members : List (String × Json)}
    (h : Defective ["name", "primitive", "expect"]
      ["name", "primitive", "source", "fill", "expect"] members) :
    Flawed (.object members)
  | expect {members : List (String × Json)} {expect : Json} (hmem : ("expect", expect) ∈ members)
    (h : Expectation.Flawed expect) : Flawed (.object members)

/-- In the object of a fixture, or of one of its scenarios, something is missing, or is there
twice. -/
inductive Fixture.Flawed : Json → Prop where
  | object {members : List (String × Json)}
    (h : Defective ["version", "family", "cases"] ["version", "family", "cases"] members) :
    Flawed (.object members)
  | case {members : List (String × Json)} {cases : List Json} {scenario : Json}
    (hmem : ("cases", .array cases) ∈ members) (hcase : scenario ∈ cases)
    (h : Scenario.Flawed scenario) : Flawed (.object members)

/-! ## Verdicts -/

namespace Expectation

/-- How the divergence of an expectation stands in documents. -/
abbrev failType : RecordType DivergenceRecord :=
  DivergenceRecord.recordType "struct variant Expectation::Fail"

/-- What is written for a verdict tells the verdict. -/
theorem toldBy_write (e : Expectation) : e.ToldBy (Expectation.codec.write e) := by
  cases e with
  | pass => exact .pass
  | fail r => exact .fail (.refl _ _)

/-- A document that tells a verdict is decoded as the verdict. -/
theorem decode_of_toldBy {e : Expectation} {j : Json} (h : e.ToldBy j) :
    Expectation.codec.decode j = .ok e := by
  cases h with
  | pass => rfl
  | @fail r members hmembers =>
    have hdecode : failType.decode (.object members) = .ok r := by
      refine failType.decode_of_varies (by decide) hmembers (by simp) rfl ?_
      exact ⟨(Codec.Means.size r.index).decode_eq, (Codec.Means.byte r.actual).decode_eq,
        (Codec.Means.byte r.expected).decode_eq, trivial⟩
    show Expectation.fail <$> failType.decode (.object members) = _
    rw [hdecode]
    rfl

/-- A flawed document is decoded as no verdict. -/
theorem decode_ne_ok_of_flawed {j : Json} (h : Flawed j) (e : Expectation) :
    Expectation.codec.decode j ≠ .ok e := by
  cases h with
  | @twice members h =>
    match members, h with
    | [], h => simp at h
    | [m], h =>
      have hone : [m.1].count "fail" ≤ 1 := List.count_le_length
      exact absurd h (by simp only [List.map_cons, List.map_nil]; omega)
    | _ :: _ :: _, _ => exact nofun
  | @fail members h =>
    have hdecode := failType.decode_ne_ok_of_defective (by decide) h
    show Expectation.fail <$> failType.decode (.object members) ≠ _
    cases hread : failType.decode (.object members) with
    | ok r => exact absurd hread (hdecode r)
    | error cause => exact nofun

end Expectation

/-! ## Scenarios -/

namespace Scenario

/-- What is written for a scenario tells the scenario. -/
theorem toldBy_write (s : Scenario) : s.ToldBy (Scenario.codec.write s) :=
  .object (.inl rfl) (.inl rfl) s.expect.toldBy_write (.refl _ _)

/-- A document that tells a scenario is decoded as the scenario. -/
theorem decode_of_toldBy {s : Scenario} {j : Json} (h : s.ToldBy j) :
    Scenario.codec.decode j = .ok s := by
  cases h with
  | @object members source fill expect hsource hfill hexpect hmembers =>
    have hsource' : (Field.defaulting "source" .text helloWorld).Says
        ((source ++ (fill ++ [("expect", expect)])).lookup "source") s.source := by
      rcases hsource with rfl | ⟨heq, rfl⟩
      · exact (Codec.Means.text s.source).decode_eq
      · rcases hfill with rfl | ⟨-, rfl⟩ <;> exact congrArg some heq.symm
    have hfill' : (Field.defaulting "fill" .byte 0).Says
        ((source ++ (fill ++ [("expect", expect)])).lookup "fill") s.fill := by
      rcases hfill with rfl | ⟨heq, rfl⟩
      · rcases hsource with rfl | ⟨-, rfl⟩ <;> exact (Codec.Means.byte s.fill).decode_eq
      · rcases hsource with rfl | ⟨-, rfl⟩ <;> exact congrArg some heq.symm
    have hexpect' : (Field.required "expect" Expectation.codec).Says
        ((source ++ (fill ++ [("expect", expect)])).lookup "expect") s.expect := by
      rcases hsource with rfl | ⟨-, rfl⟩ <;> rcases hfill with rfl | ⟨-, rfl⟩ <;>
        exact Expectation.decode_of_toldBy hexpect
    refine recordType.decode_of_varies (by decide) hmembers ?_ rfl ?_
    · rcases hsource with rfl | ⟨-, rfl⟩ <;> rcases hfill with rfl | ⟨-, rfl⟩ <;> simp
    · exact ⟨(Codec.Means.text s.name).decode_eq, (Codec.Means.text s.primitive).decode_eq,
        hsource', hfill', hexpect', trivial⟩

/-- A flawed document is decoded as no scenario. -/
theorem decode_ne_ok_of_flawed {j : Json} (h : Flawed j) (s : Scenario) :
    Scenario.codec.decode j ≠ .ok s := by
  cases h with
  | object h => exact recordType.decode_ne_ok_of_defective (by decide) h s
  | @expect members expect hmem h =>
    intro hdecode
    obtain ⟨hcount, row, hsaid, -⟩ :=
      (recordType.decode_object_eq_ok_iff (by decide) members s).1 hdecode
    have hfind : members.lookup "expect" = some expect :=
      (lookup_eq_some_iff (hcount "expect" (by decide))).2 hmem
    obtain ⟨found, hfound, hexpect⟩ := (Field.says_required_iff _ _ _ _).1 hsaid.2.2.2.2.1
    obtain rfl := Option.some.inj (hfound.symm.trans hfind)
    exact Expectation.decode_ne_ok_of_flawed h _ hexpect

end Scenario

/-! ## Fixtures -/

namespace Fixture

/-- What is written for a fixture tells the fixture. -/
theorem toldBy_write (f : Fixture) : f.ToldBy (Fixture.codec.write f) :=
  .object (List.forall₂_map_right_iff.2 (List.forall₂_same.2 fun s _ => s.toldBy_write)) (.refl _ _)

/-- **A document that tells a fixture is decoded as the fixture.** -/
theorem decode_of_toldBy {f : Fixture} {j : Json} (h : f.ToldBy j) :
    Fixture.codec.decode j = .ok f := by
  cases h with
  | @object members cases hcases hmembers =>
    have hdecode : (Codec.list Scenario.codec).decode (.array cases) = .ok f.cases :=
      (mapM_eq_ok_iff cases f.cases).2 (hcases.flip.imp fun _ _ => Scenario.decode_of_toldBy)
    refine recordType.decode_of_varies (by decide) hmembers (by simp) rfl ?_
    exact ⟨(Codec.Means.text f.version).decode_eq, (Codec.Means.text f.family).decode_eq, hdecode,
      trivial⟩

/-- **A flawed document is decoded as no fixture.** -/
theorem decode_ne_ok_of_flawed {j : Json} (h : Flawed j) (f : Fixture) :
    Fixture.codec.decode j ≠ .ok f := by
  cases h with
  | object h => exact recordType.decode_ne_ok_of_defective (by decide) h f
  | @case members cases scenario hmem hcase h =>
    intro hdecode
    obtain ⟨hcount, row, hsaid, -⟩ :=
      (recordType.decode_object_eq_ok_iff (by decide) members f).1 hdecode
    have hfind : members.lookup "cases" = some (.array cases) :=
      (lookup_eq_some_iff (hcount "cases" (by decide))).2 hmem
    obtain ⟨found, hfound, hlist⟩ := (Field.says_required_iff _ _ _ _).1 hsaid.2.2.1
    obtain rfl := Option.some.inj (hfound.symm.trans hfind)
    obtain ⟨s, -, hs⟩ := exists_mem_of_mapM_eq_ok hlist hcase
    exact Scenario.decode_ne_ok_of_flawed h s hs

end Fixture

/-! ## Texts -/

/-- The fields of a divergence are read as they are decoded. -/
theorem DivergenceRecord.agree (wanted : String) : (recordType wanted).fields.Agree 0 :=
  ⟨.unsigned (Nat.le_refl _), .unsigned (by decide), .unsigned (by decide), trivial⟩

/-- A verdict is read as it is decoded. -/
theorem Expectation.agrees : Expectation.codec.Agrees 2 := by
  refine Codec.Agrees.variants fun x hx => ?_
  rcases List.mem_pair.1 hx with rfl | rfl
  · exact (Variant.Agrees.bare _).mono (Nat.zero_le 1)
  · exact Variant.Agrees.full _ (DivergenceRecord.agree _)

/-- A scenario is read as it is decoded. -/
theorem Scenario.agrees : Scenario.codec.Agrees 3 :=
  .record ⟨Codec.Agrees.text.mono (Nat.zero_le 2), Codec.Agrees.text.mono (Nat.zero_le 2),
    Codec.Agrees.text.mono (Nat.zero_le 2), (Codec.Agrees.unsigned (by decide)).mono (Nat.zero_le 2),
    Expectation.agrees, trivial⟩

namespace Fixture

/-- **A fixture is read as it is decoded.** -/
theorem agrees : Fixture.codec.Agrees 5 :=
  .record ⟨Codec.Agrees.text.mono (Nat.zero_le 4), Codec.Agrees.text.mono (Nat.zero_le 4),
    .list Scenario.agrees, trivial⟩

/-- A fixture is read from the text of a document that tells it, in either layout. -/
theorem parse_render_of_toldBy {f : Fixture} {j : Json} (h : f.ToldBy j) (layout : Layout) :
    codec.parse (String.ofList (render layout 0 j)) = .ok f :=
  (agrees.parse_render_eq_ok_iff (by decide) layout j f).2 (decode_of_toldBy h)

/-- No fixture is read from the text of a flawed document, in either layout. -/
theorem exists_parse_render_eq_error {j : Json} (h : Flawed j) (layout : Layout) :
    ∃ e, codec.parse (String.ofList (render layout 0 j)) = .error e := by
  cases hparse : codec.parse (String.ofList (render layout 0 j)) with
  | error e => exact ⟨e, rfl⟩
  | ok f =>
    exact absurd ((agrees.parse_render_eq_ok_iff (by decide) layout j f).1 hparse)
      (decode_ne_ok_of_flawed h f)

/-- **Reading a fixture depends on nothing but what its document says.** Whatever the order of its
members, whatever members of unknown names stand among them, and whether or not the source and the
fill are left out where they are the usual ones, its text is read as the fixture, on one line or on
many. Where another member is missing, or a known one is there twice, nothing is read. -/
theorem parse_variations :
    (∀ (f : Fixture) (j : Json), f.ToldBy j →
      codec.parse j.compact = .ok f ∧ codec.parse j.pretty = .ok f) ∧
      ∀ j : Json, Flawed j →
        (∃ e, codec.parse j.compact = .error e) ∧ ∃ e, codec.parse j.pretty = .error e :=
  ⟨fun _ _ h => ⟨parse_render_of_toldBy h .compact, parse_render_of_toldBy h .pretty⟩,
    fun _ h => ⟨exists_parse_render_eq_error h .compact, exists_parse_render_eq_error h .pretty⟩⟩

/-- A fixture of one scenario, told backwards, among members that mean nothing and with the source
and the fill left out; and the same without the name of the scenario. -/
theorem parse_variations_backwards :
    codec.parse (compact (.object [("author", .null),
        ("cases", .array [.object [("notes", .array []), ("expect", .object [("fail", .object
          [("hint", .null), ("expected", .integer 104), ("actual", .integer 0),
            ("index", .integer 0)])]), ("primitive", .text "noop"), ("name", .text "a")]]),
        ("family", .text "f"), ("version", .text "v1")])) =
      .ok ⟨"v1", "f", [{ name := "a", primitive := "noop", expect := .fail ⟨0, 0, 104⟩ }]⟩ ∧
    ∃ e, codec.parse (pretty (.object [("version", .text "v1"), ("family", .text "f"),
      ("cases", .array [.object [("primitive", .text "noop"), ("expect", .text "pass")]])])) =
        .error e := by
  have hfail : Varies ["index", "actual", "expected"]
      [("hint", .null), ("expected", .integer 104), ("actual", .integer 0), ("index", .integer 0)]
      [("index", .integer 0), ("actual", .integer 0), ("expected", .integer 104)] :=
    .reverse [("index", .integer 0), ("actual", .integer 0), ("expected", .integer 104)]
      [("hint", .null)] (by decide)
  have hexpect : (Expectation.fail ⟨0, 0, 104⟩).ToldBy (.object [("fail", .object [("hint", .null),
      ("expected", .integer 104), ("actual", .integer 0), ("index", .integer 0)])]) := .fail hfail
  have hcase : Scenario.ToldBy { name := "a", primitive := "noop", expect := .fail ⟨0, 0, 104⟩ }
      (.object [("notes", .array []), ("expect", .object [("fail", .object [("hint", .null),
        ("expected", .integer 104), ("actual", .integer 0), ("index", .integer 0)])]),
        ("primitive", .text "noop"), ("name", .text "a")]) := by
    refine .object (.inr ⟨rfl, rfl⟩) (.inr ⟨rfl, rfl⟩) hexpect ?_
    exact .reverse [("name", .text "a"), ("primitive", .text "noop"), ("expect", _)]
      [("notes", .array [])] (by decide)
  have hnameless : Scenario.Flawed (.object [("primitive", .text "noop"),
      ("expect", .text "pass")]) := .object (.inl ⟨"name", by decide, by decide⟩)
  refine ⟨(parse_variations.1 _ _ (.object (.cons hcase .nil) ?_)).1, ?_⟩
  · exact .reverse [("version", .text "v1"), ("family", .text "f"), ("cases", _)]
      [("author", .null)] (by decide)
  · exact (parse_variations.2 _ (.case (.tail _ (.tail _ (.head _))) (.head _) hnameless)).2

end Fixture

end CopyTrial
