import CopyTrial.Log.Validation
import CopyTrial.Proofs.Json.RoundTrip
import CopyTrial.Proofs.Json.Steady

/-!
# The contract of a log

The rules of a log are there so that its readers can count on a contract: an entry has a trace id
of three pieces and an exit code of 0 or 1, it has a divergence only if it tells of a failure, and
it has one if that was the failure of a primitive. The rules are checked on the document, where
an outcome counts if it stands as a text and a divergence if it stands as an object. The entry is
decoded from more than that: an outcome may also stand as an object that holds nothing under its
name, and a divergence as an array. An accepted entry keeps the contract exactly as far as these
other forms do not get in the way.

## Main definitions

* `Entry.Lawful` — the contract.
* `ListsDivergence`, `NestsOutcome` — the forms that the rules pass over.

## Main results

* `breaches_eq_nil_iff` — when a document breaks no rule.
* `Entry.lawful_iff_of_validateLine_eq_ok` — when an accepted entry keeps the contract.
-/

set_option autoImplicit false

namespace CopyTrial

open Json

/-- The contract of a log, for one entry. -/
structure Entry.Lawful (e : Entry) : Prop where
  traceId : IsTraceId e.traceId
  exitCode : ∀ code, e.exitCode = some code → code ≤ 1
  /-- A divergence belongs to failed outcomes. -/
  failed_of_divergence : e.divergence.isSome → e.outcome = some .fail
  /-- A failed outcome of a primitive needs a divergence. -/
  divergence_of_failed : e.outcome = some .fail → e.primitive.isSome → e.divergence.isSome

/-- A document has a divergence that is an array. -/
def ListsDivergence (j : Json) : Prop := ∃ js, j.member? "divergence" = some (.array js)

/-- A document has an outcome that is an object. -/
def NestsOutcome (j : Json) : Prop := ∃ ms, j.member? "outcome" = some (.object ms)

/-! ## The rules -/

/-- A member with the given text is one. -/
theorem textMember?_eq_some_iff (j : Json) (name s : String) :
    textMember? j name = some s ↔ j.member? name = some (.text s) := by
  rw [textMember?]
  split
  · next h => rw [h, Option.some.injEq, Option.some.injEq, Json.text.injEq]
  · next h =>
    constructor
    · intro hs
      cases hs
    · intro hs
      exact absurd hs (h s)

/-- A divergence counts if it is an object. -/
theorem hasDivergence_iff (j : Json) :
    hasDivergence j ↔ ∃ ms, j.member? "divergence" = some (.object ms) := by
  rw [hasDivergence]
  split
  · next ms h => simp [h]
  · next h =>
    constructor
    · intro hs
      cases hs
    · rintro ⟨ms, hms⟩
      exact absurd hms (h ms)

/-- When the rule on exit codes is kept. -/
theorem exitCodeBreaches_eq_nil_iff (j : Json) :
    exitCodeBreaches j = [] ↔ ∀ code, j.member? "exit_code" = some (.integer code) → code ≤ 1 := by
  rw [exitCodeBreaches]
  split
  · next code h => simp [h]
  · next h => exact iff_of_true rfl fun code hcode => absurd hcode (h code)

/-- When the rule on trace ids is kept. -/
theorem traceIdBreaches_eq_nil_iff (j : Json) :
    traceIdBreaches j = [] ↔ ∀ id, j.member? "trace_id" = some (.text id) → IsTraceId id := by
  simp only [← textMember?_eq_some_iff]
  rw [traceIdBreaches]
  cases textMember? j "trace_id" <;> simp

/-- When the rules on divergences are kept. -/
theorem divergenceBreaches_eq_nil_iff (j : Json) :
    divergenceBreaches j = [] ↔
      (j.member? "outcome" = some (.text "fail") → (j.member? "primitive").isSome →
        hasDivergence j) ∧
      (j.member? "outcome" ≠ some (.text "fail") → ¬ hasDivergence j) := by
  rw [ne_eq, ← textMember?_eq_some_iff, divergenceBreaches]
  by_cases hfailed : textMember? j "outcome" = some "fail"
  · simp [hfailed, Outcome.name]
  · simp [hfailed, Outcome.name]

/-- **When a document breaks no rule.** -/
theorem breaches_eq_nil_iff (j : Json) :
    breaches j = [] ↔
      missingBreaches j = [] ∧ levelBreaches j = [] ∧ outcomeBreaches j = [] ∧
        divergenceBreaches j = [] ∧ exitCodeBreaches j = [] ∧ traceIdBreaches j = [] := by
  simp only [breaches, List.append_eq_nil_iff, and_assoc]

/-- What is accepted is an object that breaks no rule, and is decoded. -/
theorem validateDocument_eq_ok_iff (j : Json) (e : Entry) :
    validateDocument j = .ok e ↔
      (∃ ms, j = .object ms) ∧ breaches j = [] ∧ Entry.codec.decode j = .ok e := by
  cases j with
  | object ms =>
    rw [validateDocument]
    cases hbreaches : breaches (.object ms) with
    | nil => cases Entry.codec.decode (.object ms) <;> simp
    | cons => simp
  | _ => simp [validateDocument]

/-- The line of a plain document is judged by the document. -/
theorem validateLine_compact {j : Json} (hplain : j.Plain) (hdepth : j.depth ≤ greatestDepth) :
    validateLine j.compact = validateDocument j.canonical := by
  have hparse : Codec.freeForm.parse j.compact = .ok (FreeForm.ofJson j) :=
    whole_eq_ok ((reads_render .compact hplain hdepth).map FreeForm.ofJson)
  rw [validateLine, hparse]
  rfl

/-- The fields of an entry have different names. -/
theorem Entry.nodup_names : Entry.recordType.fields.names.Nodup := by decide

/-- What the members of a canonical document say of the entry that it is decoded to. -/
theorem Entry.says_of_decode {ms : List (String × Json)} (hms : (Json.object ms).Canonical)
    {e : Entry} (h : Entry.codec.decode (.object ms) = .ok e) :
    Entry.recordType.fields.Says (fun name => (Json.object ms).member? name)
      (Entry.recordType.toRow e) := by
  obtain ⟨row, hrow, rfl⟩ :=
    (Entry.recordType.decode_object_iff Entry.nodup_names hms.1.nodup e).1 h
  exact hrow

/-! ## Accepted entries -/

section

variable {j : Json} {e : Entry}

/-- There is a divergence where one stands, as an array or as an object. -/
theorem divergence_isSome_iff_of_member
    (h : (Field.optional "divergence" DivergenceRecord.codec).Says (j.member? "divergence")
      e.divergence) :
    e.divergence.isSome ↔ ListsDivergence j ∨ hasDivergence j := by
  rw [hasDivergence_iff, ListsDivergence]
  rcases (Field.says_optional_iff ..).1 h with ⟨hfound | hfound, hv⟩ | ⟨d, r, hfound, -, hr, hv⟩
  · simp [hfound, hv]
  · simp [hfound, hv]
  · rcases RecordType.isContainer_of_decode hr with ⟨js, rfl⟩ | ⟨ms, rfl⟩
    · simp [hfound, hv]
    · simp [hfound, hv]

/-- A failed outcome stands as its name or as an object. -/
theorem member_of_outcome_eq_fail
    (h : (Field.optional "outcome" Outcome.codec).Says (j.member? "outcome") e.outcome)
    (hfail : e.outcome = some .fail) :
    j.member? "outcome" = some (.text "fail") ∨ NestsOutcome j := by
  rcases (Field.says_optional_iff ..).1 h with ⟨-, hv⟩ | ⟨d, o, hfound, -, ho, hv⟩
  · rw [hfail] at hv
    cases hv
  · obtain rfl : Outcome.fail = o := Option.some.inj (hfail.symm.trans hv)
    rcases Codec.decode_names_eq_ok ho with rfl | rfl
    · exact .inl hfound
    · exact .inr ⟨_, hfound⟩

/-- The name of the failed outcome stands for it. -/
theorem outcome_eq_fail_of_member
    (h : (Field.optional "outcome" Outcome.codec).Says (j.member? "outcome") e.outcome)
    (hmember : j.member? "outcome" = some (.text "fail")) : e.outcome = some .fail := by
  rw [hmember] at h
  have hdecode : Outcome.codec.optional.decode (.text "fail") = .ok (some .fail) := rfl
  exact (Except.ok.inj (hdecode.symm.trans h)).symm

/-- Where there is a primitive, there is a member for it. -/
theorem member_isSome_of_primitive
    (h : (Field.optional "primitive" Codec.text).Says (j.member? "primitive") e.primitive)
    (hprimitive : e.primitive.isSome) : (j.member? "primitive").isSome := by
  rcases (Field.says_optional_iff ..).1 h with ⟨-, hv⟩ | ⟨d, s, hfound, -, -, -⟩
  · rw [hv] at hprimitive
    cases hprimitive
  · rw [hfound]
    rfl

/-- The exit code of an accepted entry is 0 or 1. -/
theorem exitCode_le_one_of_member
    (h : (Field.optional "exit_code" Codec.byte).Says (j.member? "exit_code") e.exitCode)
    (hrule : exitCodeBreaches j = []) {code : UInt8} (hcode : e.exitCode = some code) :
    code ≤ 1 := by
  rcases (Field.says_optional_iff ..).1 h with ⟨-, hv⟩ | ⟨d, b, hfound, -, hb, hv⟩
  · rw [hcode] at hv
    cases hv
  · obtain rfl : code = b := Option.some.inj (hcode.symm.trans hv)
    obtain ⟨n, rfl, hn, rfl⟩ := (Codec.decode_unsigned_eq_ok_iff d code).1 hb
    have hle := (exitCodeBreaches_eq_nil_iff j).1 hrule n hfound
    rw [UInt8.le_iff_toNat_le, UInt8.toNat_ofNat_of_lt' hn]
    exact Int.ofNat_le.1 hle

end

/-- **When an accepted entry keeps the contract.** The trace id and the exit code always do. So
does the rest, except that a divergence in the form of an array may belong to an outcome that did
not fail, and that a failed outcome of a primitive in the form of an object may have no divergence
but one in the form of an array.

**Proof sketch.** The entry is what the members of the document say. An outcome that stands as a
text and a divergence that stands as an object are seen by the rules, which leaves the cases in
which one of them stands in its other form. -/
theorem Entry.lawful_iff_of_validateLine_eq_ok {line : String} {e : Entry}
    (h : validateLine line = .ok e) :
    IsTraceId e.traceId ∧ (∀ code, e.exitCode = some code → code ≤ 1) ∧
      ∃ document, Codec.freeForm.parse line = .ok document ∧
        (e.Lawful ↔
          (ListsDivergence document.json → e.outcome = some .fail) ∧
            (NestsOutcome document.json → e.outcome = some .fail → e.primitive.isSome →
              ListsDivergence document.json)) := by
  rw [validateLine] at h
  cases hparse : Codec.freeForm.parse line with
  | error error =>
    rw [hparse] at h
    cases h
  | ok document =>
    rw [hparse] at h
    obtain ⟨j, hcanonical⟩ := document
    obtain ⟨⟨ms, rfl⟩, hbreaches, hdecode⟩ := (validateDocument_eq_ok_iff j e).1 h
    obtain ⟨-, -, -, hrule, hexitRule, hidRule⟩ := (breaches_eq_nil_iff _).1 hbreaches
    obtain ⟨hfailedRule, hstrayRule⟩ := (divergenceBreaches_eq_nil_iff _).1 hrule
    obtain ⟨-, hid, -, -, -, -, hprimitive, -, -, houtcome, hexit, hdivergence, -⟩ :=
      Entry.says_of_decode hcanonical hdecode
    have hid : IsTraceId e.traceId := by
      obtain ⟨d, hfound, hd⟩ := (Field.says_required_iff ..).1 hid
      rw [Codec.decode_text_eq_ok_iff] at hd
      exact (traceIdBreaches_eq_nil_iff _).1 hidRule _ (hd ▸ hfound)
    have hexit : ∀ code, e.exitCode = some code → code ≤ 1 :=
      fun code hcode => exitCode_le_one_of_member hexit hexitRule hcode
    have hsome := divergence_isSome_iff_of_member hdivergence
    refine ⟨hid, hexit, _, rfl, fun hlawful => ⟨fun hlists => ?_, fun hnests hfail hprim => ?_⟩,
      fun ⟨hlists, hnests⟩ => ⟨hid, hexit, fun hd => ?_, fun hfail hprim => ?_⟩⟩
    · exact hlawful.failed_of_divergence (hsome.2 (.inl hlists))
    · rcases hsome.1 (hlawful.divergence_of_failed hfail hprim) with hlists | hhas
      · exact hlists
      · -- an object is a stray divergence where the outcome is no text
        refine absurd hhas (hstrayRule fun htext => ?_)
        obtain ⟨content, hcontent⟩ := hnests
        rw [htext] at hcontent
        cases hcontent
    · rcases hsome.1 hd with hlist | hhas
      · exact hlists hlist
      · have htext := Classical.byContradiction fun htext => hstrayRule htext hhas
        exact outcome_eq_fail_of_member houtcome htext
    · rcases member_of_outcome_eq_fail houtcome hfail with htext | hnest
      · exact hsome.2 (.inr (hfailedRule htext (member_isSome_of_primitive hprimitive hprim)))
      · exact hsome.2 (.inl (hnests hnest hfail hprim))

/-- A document with a divergence that stands as an array beside an outcome that is no failure. -/
def listedDivergence : Json :=
  .object
    [("divergence", .array [.integer 0, .integer 0, .integer 104]), ("event", .text "x"),
      ("level", .text "info"), ("outcome", .text "pass"), ("timestamp", .text "t"),
      ("trace_id", .text "a::b::c")]

/-- The entry of that document. -/
def listedDivergenceEntry : Entry where
  timestamp := "t"
  traceId := "a::b::c"
  level := .info
  event := "x"
  outcome := some .pass
  divergence := some ⟨0, 0, 104⟩

/-- The line of that document is accepted: the rules do not see its divergence. -/
theorem validateLine_listedDivergence :
    validateLine listedDivergence.compact = .ok listedDivergenceEntry := by
  have hbytes : ∀ j ∈ [Json.integer 0, .integer 0, .integer 104], j.Plain := by
    simp only [List.forall_mem_cons]
    exact ⟨.integer (by decide), .integer (by decide), .integer (by decide), by simp⟩
  have hplain : listedDivergence.Plain := by
    refine .object ?_
    simp only [List.forall_mem_cons]
    exact ⟨.array hbytes, .text _, .text _, .text _, .text _, .text _, by simp⟩
  have hcanonical : listedDivergence.canonical = listedDivergence := by
    have hzero : InWordRange 0 := by decide
    have hbyte : InWordRange 104 := by decide
    simp only [listedDivergence, canonical, canonicalMembers, insertMember, canonicalElements,
      String.reduceLT, String.reduceEq, if_false, if_pos hzero, if_pos hbyte]
  rw [validateLine_compact hplain (by decide), hcanonical, validateDocument_eq_ok_iff]
  exact ⟨⟨_, rfl⟩, rfl, rfl⟩

/-- The theorem on an accepted line whose entry does not keep the contract. -/
theorem lawful_iff_of_listedDivergence :
    validateLine listedDivergence.compact = .ok listedDivergenceEntry ∧
      listedDivergence.compact =
          "\x7b\"divergence\":[0,0,104],\"event\":\"x\",\"level\":\"info\"," ++
            "\"outcome\":\"pass\",\"timestamp\":\"t\",\"trace_id\":\"a::b::c\"\x7d" ∧
      IsTraceId listedDivergenceEntry.traceId ∧
      ∃ document, Codec.freeForm.parse listedDivergence.compact = .ok document ∧
        (listedDivergenceEntry.Lawful ↔
          (ListsDivergence document.json → listedDivergenceEntry.outcome = some .fail) ∧
            (NestsOutcome document.json → listedDivergenceEntry.outcome = some .fail →
              listedDivergenceEntry.primitive.isSome → ListsDivergence document.json)) := by
  obtain ⟨hid, -, hlawful⟩ :=
    Entry.lawful_iff_of_validateLine_eq_ok validateLine_listedDivergence
  exact ⟨validateLine_listedDivergence, by decide, hid, hlawful⟩

/-- Not every accepted entry keeps the contract. -/
theorem exists_accepted_not_lawful :
    ¬ ∀ (line : String) (e : Entry), validateLine line = .ok e → e.Lawful := by
  intro h
  have hlawful := h _ _ validateLine_listedDivergence
  exact absurd (hlawful.failed_of_divergence rfl) (by decide)

end CopyTrial
