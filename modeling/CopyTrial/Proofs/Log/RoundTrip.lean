import CopyTrial.Proofs.Log.Contract

/-!
# Written entries are read back

The line of an entry holds a document whose members are those of the entry, so the rules of a log
see the entry as it is, and what is decoded from the line is the entry. It is accepted exactly
when it keeps the contract. The details must be such that they can be told from their text.

## Main definitions

* `Entry.Loggable` — the details of an entry survive being written.
* `Entry.Holds` — a document can stand in the line of an entry.
* `Entry.faults` — the rules that an entry breaks.
* `Entry.Tells` — what the rules look at in a document is that of an entry.

## Main results

* `Entry.steady` — an entry is decoded from the canonical form of its document.
* `Entry.Tells.breaches_eq` — the rules that the document of an entry breaks.
* `Entry.validateLine_line` — what is made of the line of an entry.
-/

set_option autoImplicit false

namespace CopyTrial

open Json

namespace Entry

/-- The details of an entry survive being written: they are not the absence of details, hold no
double, and are not nested deeper than the entry around them allows. -/
def Loggable (e : Entry) : Prop :=
  ∀ v, e.details = some v → v.json ≠ .null ∧ v.json.DoubleFree ∧ v.json.depth ≤ 126

/-- A document that can be read back as a member of an entry. -/
def Holds (j : Json) : Prop := j.Plain ∧ j.depth ≤ 126

/-- The rules that an entry breaks, in the order in which they are told. -/
def faults (e : Entry) : List Breach :=
  (if e.outcome = some .fail ∧ e.primitive.isSome ∧ e.divergence = none then
    [.divergenceMissing] else []) ++
  (if e.divergence.isSome ∧ e.outcome ≠ some .fail then [.divergenceStray] else []) ++
  (match e.exitCode with
    | some code => if 1 < code then [.badExitCode code.toNat] else []
    | none => []) ++
  if IsTraceId e.traceId then [] else [.badTraceId e.traceId]

end Entry

/-! ## What stands in the document of an entry -/

/-- A level is decoded again. -/
theorem Level.steady (l : Level) : Level.codec.Steady l := by
  cases l <;> rfl

/-- An outcome is decoded again. -/
theorem Outcome.steady (o : Outcome) : Outcome.codec.Steady o := by
  cases o <;> rfl

namespace DivergenceRecord

/-- A divergence is decoded again. -/
theorem steady (r : DivergenceRecord) : DivergenceRecord.codec.Steady r :=
  Codec.Steady.record (by decide) rfl
    ⟨.required _ (.size _), .required _ (.byte _), .required _ (.byte _), trivial⟩

end DivergenceRecord

namespace Entry

/-- An entry is decoded again. -/
theorem steady {e : Entry} (h : e.Loggable) : Entry.codec.Steady e := by
  refine Codec.Steady.record nodup_names rfl ⟨.required _ (.text _), .required _ (.text _),
    .required _ (Level.steady _), .required _ (.text _), .optional _ ?_, .optional _ ?_,
    .optional _ ?_, .optional _ ?_, .optional _ ?_, .optional _ ?_, .optional _ ?_,
    .optional _ ?_, .optional _ ?_, .optional _ ?_, .optional _ ?_, trivial⟩
  · exact fun s _ => ⟨.text s, nofun⟩
  · exact fun s _ => ⟨.text s, nofun⟩
  · exact fun s _ => ⟨.text s, nofun⟩
  · exact fun n _ => ⟨.size n, nofun⟩
  · exact fun b _ => ⟨.byte b, nofun⟩
  · exact fun o _ => ⟨o.steady, nofun⟩
  · exact fun b _ => ⟨.byte b, nofun⟩
  · exact fun r _ => ⟨r.steady, nofun⟩
  · exact fun n _ => ⟨.word64 n, nofun⟩
  · exact fun refs _ => ⟨.list fun s _ => .text s, nofun⟩
  · exact fun v hv => ⟨.freeForm v, (h v hv).1⟩

/-- A text can stand in the line of an entry. -/
theorem holds_text (s : String) : Holds (.text s) := ⟨.text s, Nat.zero_le _⟩

/-- A natural number of 64 bits can stand in the line of an entry. -/
theorem holds_integer {n : Nat} (h : n < UInt64.size) : Holds (.integer n) :=
  ⟨.integer (inWordRange_of_lt h), Nat.zero_le _⟩

/-- A byte can stand in the line of an entry. -/
theorem holds_byte (b : UInt8) : Holds (Codec.byte.write b) :=
  holds_integer (Nat.lt_trans b.toNat_lt (by decide))

/-- Texts can stand in the line of an entry. -/
theorem holds_texts (refs : List String) : Holds (Codec.text.list.write refs) := by
  have hmem : ∀ j ∈ refs.map Codec.text.write, Holds j := by
    intro j hj
    obtain ⟨s, -, rfl⟩ := List.mem_map.1 hj
    exact holds_text s
  have hdepth : depthElements (refs.map Codec.text.write) ≤ 0 := by
    rw [depthElements_le_iff]
    intro j hj
    obtain ⟨s, -, rfl⟩ := List.mem_map.1 hj
    exact Nat.le_refl 0
  refine ⟨.array fun j hj => (hmem j hj).1, ?_⟩
  show depthElements _ + 1 ≤ 126
  omega

/-- A divergence can stand in the line of an entry. -/
theorem holds_divergence (r : DivergenceRecord) : Holds (DivergenceRecord.codec.write r) := by
  have hmem : ∀ m ∈ (DivergenceRecord.recordType "struct DivergenceRecord").fields.write
      (r.index, r.actual, r.expected, ()), m.2.Plain := by
    refine Fields.Writes.forall_mem ⟨fun _ => ?_, fun _ => ?_, fun _ => ?_, trivial⟩
    · exact (holds_integer r.index.toNat_lt).1
    · exact (holds_byte r.actual).1
    · exact (holds_byte r.expected).1
  refine ⟨.object hmem, ?_⟩
  show 1 ≤ 126
  decide

/-- Whatever is written of an entry can stand in its line. -/
theorem writes {e : Entry} (h : e.Loggable) :
    recordType.fields.Writes Holds (recordType.toRow e) := by
  refine ⟨fun _ => holds_text _, fun _ => holds_text _, fun _ => holds_text _,
    fun _ => holds_text _,
    Fields.writes_optional _ ?_, Fields.writes_optional _ ?_, Fields.writes_optional _ ?_,
    Fields.writes_optional _ ?_, Fields.writes_optional _ ?_, Fields.writes_optional _ ?_,
    Fields.writes_optional _ ?_, Fields.writes_optional _ ?_, Fields.writes_optional _ ?_,
    Fields.writes_optional _ ?_, Fields.writes_optional _ ?_, trivial⟩
  · exact fun s _ => holds_text s
  · exact fun s _ => holds_text s
  · exact fun s _ => holds_text s
  · exact fun n _ => holds_integer n.toNat_lt
  · exact fun b _ => holds_byte b
  · exact fun o _ => holds_text o.name
  · exact fun b _ => holds_byte b
  · exact fun r _ => holds_divergence r
  · exact fun n _ => holds_integer n.toNat_lt
  · exact fun refs _ => holds_texts refs
  · exact fun v hv => ⟨v.canonical.plain (h v hv).2.1, (h v hv).2.2⟩

/-! ## What the rules see -/

/-- The members of a document that the rules look at are those of an entry. -/
structure Tells (j : Json) (e : Entry) : Prop where
  timestamp : j.member? "timestamp" = some (.text e.timestamp)
  traceId : j.member? "trace_id" = some (.text e.traceId)
  level : j.member? "level" = some (.text e.level.name)
  event : j.member? "event" = some (.text e.event)
  primitive : j.member? "primitive" = e.primitive.map .text
  outcome : j.member? "outcome" = e.outcome.map fun o => .text o.name
  exitCode : j.member? "exit_code" = e.exitCode.map fun code => .integer code.toNat
  divergence : hasDivergence j = e.divergence.isSome

/-- The document of a byte is canonical. -/
theorem canonical_byte (b : UInt8) : (Codec.byte.write b).canonical = .integer b.toNat := by
  have hwrite : Codec.byte.write b = .integer b.toNat := rfl
  rw [hwrite, canonical, if_pos (inWordRange_of_lt (Nat.lt_trans b.toNat_lt (by decide)))]

/-- The canonical form of the document of an entry tells the entry. -/
theorem tells_canonical (e : Entry) : Tells (Entry.codec.write e).canonical e := by
  obtain ⟨htimestamp, hid, hlevel, hevent, -, -, hprimitive, -, -, houtcome, hexit, hdivergence,
    -⟩ := recordType.finds_canonical nodup_names e
  refine ⟨htimestamp, hid, hlevel, hevent, ?_, ?_, ?_, ?_⟩
  · exact hprimitive.trans (Field.found_optional ..)
  · exact houtcome.trans (Field.found_optional ..)
  · have hfound := hexit.trans (Field.found_optional ..)
    simp only [canonical_byte] at hfound
    exact hfound
  · have hfound : (Entry.codec.write e).canonical.member? "divergence" =
        e.divergence.map fun r => (DivergenceRecord.codec.write r).canonical :=
      hdivergence.trans (Field.found_optional ..)
    rw [Bool.eq_iff_iff, hasDivergence_iff, hfound]
    cases e.divergence with
    | none => simp
    | some r => exact iff_of_true ⟨_, rfl⟩ rfl

namespace Tells

variable {j : Json} {e : Entry}

/-- No member is missing. -/
theorem missingBreaches_eq (h : Tells j e) : missingBreaches j = [] := by
  simp [missingBreaches, requiredMembers, h.timestamp, h.traceId, h.level, h.event]

/-- The level is the name of one. -/
theorem levelBreaches_eq (h : Tells j e) : levelBreaches j = [] := by
  rw [levelBreaches, (textMember?_eq_some_iff ..).2 h.level]
  cases e.level <;> rfl

/-- The outcome is the name of one. -/
theorem outcomeBreaches_eq (h : Tells j e) : outcomeBreaches j = [] := by
  have houtcome := h.outcome
  cases ho : e.outcome with
  | none =>
    rw [ho] at houtcome
    rw [outcomeBreaches, textMember?, houtcome]
    rfl
  | some o =>
    rw [ho] at houtcome
    rw [outcomeBreaches, (textMember?_eq_some_iff ..).2 houtcome]
    cases o <;> rfl

/-- The rules on divergences are kept where the entry keeps them. -/
theorem divergenceBreaches_eq (h : Tells j e) :
    divergenceBreaches j =
      (if e.outcome = some .fail ∧ e.primitive.isSome ∧ e.divergence = none then
        [.divergenceMissing] else []) ++
      if e.divergence.isSome ∧ e.outcome ≠ some .fail then [.divergenceStray] else [] := by
  have hfailed : textMember? j "outcome" = some Outcome.fail.name ↔ e.outcome = some .fail := by
    rw [textMember?_eq_some_iff, h.outcome]
    cases e.outcome with
    | none => simp
    | some o => cases o <;> simp [Outcome.name]
  have hsome : (j.member? "primitive").isSome = e.primitive.isSome := by
    rw [h.primitive, Option.isSome_map]
  rw [divergenceBreaches, hsome, h.divergence]
  by_cases hfail : e.outcome = some .fail
  · cases hd : e.divergence <;> simp [hfailed, hfail]
  · simp [hfailed, hfail]

/-- The rule on exit codes is kept where the entry keeps it. -/
theorem exitCodeBreaches_eq (h : Tells j e) :
    exitCodeBreaches j =
      match e.exitCode with
      | some code => if 1 < code then [.badExitCode code.toNat] else []
      | none => [] := by
  rw [exitCodeBreaches, h.exitCode]
  cases e.exitCode with
  | none => rfl
  | some code =>
    have hlt : (1 : Int) < (code.toNat : Int) ↔ 1 < code := by
      rw [UInt8.lt_iff_toNat_lt]
      exact Int.ofNat_lt
    simp [hlt]

/-- The rule on trace ids is kept where the entry keeps it. -/
theorem traceIdBreaches_eq (h : Tells j e) :
    traceIdBreaches j = if IsTraceId e.traceId then [] else [.badTraceId e.traceId] := by
  rw [traceIdBreaches, (textMember?_eq_some_iff ..).2 h.traceId]

/-- **A document that tells an entry breaks the rules that the entry breaks.** -/
theorem breaches_eq (h : Tells j e) : breaches j = e.faults := by
  rw [breaches, h.missingBreaches_eq, h.levelBreaches_eq, h.outcomeBreaches_eq,
    h.divergenceBreaches_eq, h.exitCodeBreaches_eq, h.traceIdBreaches_eq, faults]
  rfl

end Tells

/-! ## What is made of the line -/

/-- The broken rules are those whose condition the entry does not meet. -/
theorem mem_faults_iff (e : Entry) (b : Breach) :
    b ∈ e.faults ↔
      (b = .divergenceMissing ∧ e.outcome = some .fail ∧ e.primitive.isSome ∧
        e.divergence = none) ∨
      (b = .divergenceStray ∧ e.divergence.isSome ∧ e.outcome ≠ some .fail) ∨
      (∃ code, b = .badExitCode code.toNat ∧ e.exitCode = some code ∧ 1 < code) ∨
      (b = .badTraceId e.traceId ∧ ¬ IsTraceId e.traceId) := by
  have hexit : b ∈ (match e.exitCode with
      | some code => if 1 < code then [Breach.badExitCode code.toNat] else []
      | none => []) ↔
      ∃ code, b = .badExitCode code.toNat ∧ e.exitCode = some code ∧ 1 < code := by
    cases e.exitCode with
    | none => simp
    | some code =>
      rw [List.mem_ite_nil_right, List.mem_singleton]
      constructor
      · rintro ⟨hlt, rfl⟩
        exact ⟨code, rfl, rfl, hlt⟩
      · rintro ⟨code', rfl, hcode, hlt⟩
        obtain rfl := Option.some.inj hcode
        exact ⟨hlt, rfl⟩
  rw [faults, List.mem_append, List.mem_append, List.mem_append, hexit, or_assoc, or_assoc]
  simp only [List.mem_ite_nil_right, List.mem_ite_nil_left, List.mem_singleton,
    and_comm (b := b = _)]

/-- An entry breaks no rule exactly when it meets the condition of each. -/
theorem faults_eq_nil_iff (e : Entry) :
    e.faults = [] ↔
      IsTraceId e.traceId ∧
        ¬ (e.outcome = some .fail ∧ e.primitive.isSome ∧ e.divergence = none) ∧
        ¬ (e.divergence.isSome ∧ e.outcome ≠ some .fail) ∧
        ∀ code, e.exitCode = some code → code ≤ 1 := by
  rw [List.eq_nil_iff_forall_not_mem]
  simp only [mem_faults_iff]
  constructor
  · intro h
    refine ⟨?_, fun hmissing => ?_, fun hstray => ?_, fun code hexit => ?_⟩
    · exact Decidable.byContradiction fun hid => h _ (.inr (.inr (.inr ⟨rfl, hid⟩)))
    · exact h _ (.inl ⟨rfl, hmissing⟩)
    · exact h _ (.inr (.inl ⟨rfl, hstray⟩))
    · exact UInt8.not_lt.1 fun hlt => h _ (.inr (.inr (.inl ⟨code, rfl, hexit, hlt⟩)))
  · rintro ⟨hid, hmissing, hstray, hcode⟩ b hb
    rcases hb with ⟨-, hb⟩ | ⟨-, hb⟩ | ⟨code, -, hexit, hlt⟩ | ⟨-, hb⟩
    · exact hmissing hb
    · exact hstray hb
    · exact UInt8.not_lt.2 (hcode code hexit) hlt
    · exact hb hid

/-- No rule is broken twice. -/
theorem nodup_faults (e : Entry) : e.faults.Nodup := by
  have hpiece : ∀ (p : Prop) [Decidable p] (b : Breach), (if p then [b] else []).Sublist [b] := by
    intro p _ b
    split
    · exact List.Sublist.refl _
    · exact List.nil_sublist _
  have hexit : (match e.exitCode with
      | some code => if 1 < code then [Breach.badExitCode code.toNat] else []
      | none => []).Sublist [.badExitCode (e.exitCode.getD 0).toNat] := by
    cases e.exitCode with
    | none => exact List.nil_sublist _
    | some code => exact hpiece ..
  have hid := hpiece (¬ IsTraceId e.traceId) (.badTraceId e.traceId)
  rw [ite_not] at hid
  have hall : [Breach.divergenceMissing, .divergenceStray,
      .badExitCode (e.exitCode.getD 0).toNat, .badTraceId e.traceId].Nodup := by simp
  exact ((((hpiece ..).append (hpiece ..)).append hexit).append hid).nodup hall

/-- What is made of the line of an entry that can be logged. -/
theorem validateLine_line_eq {e : Entry} (h : e.Loggable) :
    validateLine e.line = match e.faults with
      | [] => .ok e
      | faults => .error faults := by
  have hmembers := (writes h).forall_mem
  have hplain : (Entry.codec.write e).Plain := .object fun m hm => (hmembers m hm).1
  have hdepth : (Entry.codec.write e).depth ≤ greatestDepth :=
    Nat.succ_le_succ (depthMembers_le_iff.2 fun m hm => (hmembers m hm).2)
  have hdocument : ∃ ms, (Entry.codec.write e).canonical = .object ms := ⟨_, rfl⟩
  have hbreaches := (tells_canonical e).breaches_eq
  have hdecode : Entry.codec.decode (Entry.codec.write e).canonical = .ok e := steady h
  rw [line, Codec.compact, validateLine_compact hplain hdepth]
  obtain ⟨ms, hms⟩ := hdocument
  rw [hms] at hbreaches hdecode ⊢
  cases hfaults : e.faults with
  | nil => rw [validateDocument, hbreaches, hfaults, hdecode]
  | cons b faults => rw [validateDocument, hbreaches, hfaults]

/-- The violations in the line of an entry that can be logged. -/
theorem lineViolations_line {e : Entry} (h : e.Loggable) (number : Nat) :
    lineViolations number e.line = e.faults.map fun b => ⟨number, b⟩ := by
  rw [lineViolations, validateLine_line_eq h]
  cases e.faults <;> rfl

/-- No broken rule concerns the form of the line. -/
theorem field_of_mem_faults {e : Entry} {b : Breach} (h : b ∈ e.faults) :
    b.field ∉ ["<json>", "<root>", "<deserialization>"] := by
  rcases (mem_faults_iff e b).1 h with ⟨rfl, -⟩ | ⟨rfl, -⟩ | ⟨code, rfl, -⟩ | ⟨rfl, -⟩ <;>
    simp [Breach.field]

/-- **The line of an entry is accepted exactly when the entry keeps the contract**, and is then
read as the entry. Otherwise it is rejected for just those rules whose condition the entry does
not meet, each of them told once and with the number of the line, and never for its form.

**Proof sketch.** The line is read as the document that was written, whose canonical form tells
the members of the entry. So the rules it breaks are those that the entry breaks, and if there are
none, the entry is decoded from it. -/
theorem validateLine_line {e : Entry} (h : e.Loggable) (number : Nat) :
    (validateLine e.line = .ok e ↔
      IsTraceId e.traceId ∧
        ¬ (e.outcome = some .fail ∧ e.primitive.isSome ∧ e.divergence = none) ∧
        ¬ (e.divergence.isSome ∧ e.outcome ≠ some .fail) ∧
        ∀ code, e.exitCode = some code → code ≤ 1) ∧
    (validateLine e.line ≠ .ok e →
      ∃ broken, validateLine e.line = .error broken ∧
        lineViolations number e.line = broken.map (fun b => ⟨number, b⟩) ∧
        broken ≠ [] ∧ broken.Nodup ∧
        (∀ b, b ∈ broken ↔
          (b = .divergenceMissing ∧ e.outcome = some .fail ∧ e.primitive.isSome ∧
            e.divergence = none) ∨
          (b = .divergenceStray ∧ e.divergence.isSome ∧ e.outcome ≠ some .fail) ∨
          (∃ code, b = .badExitCode code.toNat ∧ e.exitCode = some code ∧ 1 < code) ∨
          (b = .badTraceId e.traceId ∧ ¬ IsTraceId e.traceId)) ∧
        ∀ b ∈ broken, b.field ∉ ["<json>", "<root>", "<deserialization>"]) := by
  have hline := validateLine_line_eq h
  have haccepted : validateLine e.line = .ok e ↔ e.faults = [] := by
    rw [hline]
    cases e.faults <;> simp
  refine ⟨haccepted.trans e.faults_eq_nil_iff, fun hrejected => ?_⟩
  have hne : e.faults ≠ [] := fun hnil => hrejected (haccepted.2 hnil)
  have herror : validateLine e.line = .error e.faults := by
    rw [hline]
    cases hfaults : e.faults with
    | nil => exact absurd hfaults hne
    | cons b faults => rfl
  exact ⟨e.faults, herror, lineViolations_line h number, hne, e.nodup_faults, e.mem_faults_iff,
    fun b hb => field_of_mem_faults hb⟩

/-- An entry on a failed copy, with details and with characters that are escaped. -/
def failedCopy (exitCode : UInt8) : Entry where
  timestamp := "2024-01-01T00:00:00.000Z"
  traceId := "memcpy::run::001"
  level := .error
  event := "\"copy\"\n"
  primitive := some "noop"
  outcome := some .fail
  exitCode := some exitCode
  divergence := some ⟨0, 0, 104⟩
  details := some (detailsOf [("expected", .text "pass")])

/-- The theorem on an entry that is accepted, and on one with an exit code that is not. -/
theorem validateLine_line_failedCopy :
    (∀ code, (failedCopy code).Loggable) ∧
      validateLine (failedCopy 1).line = .ok (failedCopy 1) ∧
      ∃ broken, validateLine (failedCopy 2).line = .error broken ∧
        lineViolations 7 (failedCopy 2).line = broken.map (fun b => ⟨7, b⟩) ∧
        .badExitCode 2 ∈ broken := by
  have hloggable : ∀ code, (failedCopy code).Loggable := by
    rintro code v hv
    obtain rfl := Option.some.inj hv
    exact ⟨nofun, ⟨trivial, trivial⟩, by decide⟩
  have haccepted : validateLine (failedCopy 1).line = .ok (failedCopy 1) := by
    refine (validateLine_line (hloggable 1) 7).1.2 ⟨by decide, by decide, by decide, ?_⟩
    rintro code hcode
    obtain rfl := Option.some.inj hcode
    decide
  have hrejected : validateLine (failedCopy 2).line ≠ .ok (failedCopy 2) := by
    intro h
    have hcode := ((validateLine_line (hloggable 2) 7).1.1 h).2.2.2 2 rfl
    exact absurd hcode (by decide)
  obtain ⟨broken, herror, hnumbered, -, -, hmem, -⟩ :=
    (validateLine_line (hloggable 2) 7).2 hrejected
  exact ⟨hloggable, haccepted, broken, herror, hnumbered,
    (hmem _).2 (.inr (.inr (.inl ⟨2, rfl, rfl, by decide⟩)))⟩

end Entry

end CopyTrial
