import Mathlib.Data.List.Forall2
import CopyTrial.Campaign.Report
import CopyTrial.Proofs.Json.Reads
import CopyTrial.Proofs.Text.Lines

/-!
# The table of a report

The Markdown of a report holds one line for each result, below the two lines that start a table of
five columns. A line is cut into cells at its bars. The words of a verdict show every visible byte
as it is, a bar too, so a line has a cell more for each byte of its verdicts that is a bar; only
without such bytes the cells are the five of the columns.

## Main definitions

* `Report.Plain` — the texts of a report have no bars and no line feeds.
* `Report.tableCells` — the cells of a line.
* `Result.cells`, `Result.bars` — the cells that are to tell a result, and how many bytes of its
  verdicts are bars.
* `Result.IsRow` — what the line of a result is like.

## Main results

* `Expectation.count_bar_wording` — how many bars there are in a verdict in words.
* `Result.isRow_row` — what the line of a result is like, if its texts have no bars.
* `Report.table_markdown` — where the table stands in a report, and what its lines are like.
-/

set_option autoImplicit false

namespace CopyTrial

/-! ## Verdicts in words -/

/-- A bar stands in the words of a byte only if the byte is one, and a line feed never does. -/
theorem count_bar_byteWording (b : UInt8) :
    (byteWording b).count '|' = [b].count 0x7c ∧ '\n' ∉ byteWording b := by
  have hall : ∀ n < 256, (byteWording (UInt8.ofNat n)).count '|' = [UInt8.ofNat n].count 0x7c ∧
      '\n' ∉ byteWording (UInt8.ofNat n) := by decide +kernel
  have hb := hall b.toNat b.toNat_lt
  rwa [UInt8.ofNat_toNat] at hb

namespace Expectation

/-- How many bytes of a verdict are bars. -/
def bars : Expectation → Nat
  | .pass => 0
  | .fail r => [r.actual, r.expected].count 0x7c

/-- **There are as many bars in the words of a verdict as bytes of it are bars**, and no line
feeds. -/
theorem count_bar_wording (x : Expectation) :
    x.wording.toList.count '|' = x.bars ∧ '\n' ∉ x.wording.toList := by
  cases x with
  | pass => decide
  | fail r =>
    obtain ⟨hactual, hactual'⟩ := count_bar_byteWording r.actual
    obtain ⟨hexpected, hexpected'⟩ := count_bar_byteWording r.expected
    have hbar := List.count_eq_zero.2 (Json.not_mem_toDigits (c := '|') (by decide) r.index.toNat)
    have hfeed := Json.not_mem_toDigits (c := '\n') (by decide) r.index.toNat
    have hbytes : [r.actual, r.expected].count 0x7c =
        [r.actual].count 0x7c + [r.expected].count 0x7c :=
      @List.count_append _ _ 0x7c [r.actual] [r.expected]
    constructor
    · simp [wording, Divergence.wording, DivergenceRecord.divergence, bars, hbytes, hactual,
        hexpected, hbar]
    · simp [wording, Divergence.wording, DivergenceRecord.divergence, hactual', hexpected', hfeed]

end Expectation

/-! ## The line of a result -/

/-- Between so many parts there is one bar less, besides those in the parts. -/
theorem Text.count_intercalate_cons (part : List Char) (parts : List (List Char)) :
    (['|'].intercalate (part :: parts)).count '|' =
      parts.length + (part :: parts).flatten.count '|' := by
  induction parts generalizing part with
  | nil => simp [List.intercalate]
  | cons next parts ih =>
    rw [List.intercalate_cons_cons, List.count_append, List.count_append, ih, List.length_cons,
      @List.flatten_cons _ part, @List.count_append _ _ '|' part, List.count_singleton_self]
    omega

namespace Result

/-- The cells that are to tell a result. -/
def cells (x : Result) : List String :=
  [x.scenario, x.primitive, x.expected.wording, x.observed.elim "-" Expectation.wording,
    if x.passed then "PASS" else "FAIL"]

/-- How many bytes of the verdicts of a result are bars. -/
def bars (x : Result) : Nat := x.expected.bars + x.observed.elim 0 Expectation.bars

end Result

namespace Report

/-- A cell with a space on either side. -/
def spaced (cell : String) : List Char := ' ' :: (cell.toList ++ [' '])

/-- The cells of a line: what stands between its bars, the first and the last of which are left
out. -/
def tableCells (line : List Char) : List (List Char) := line.tail.dropLast.splitOn '|'

end Report

/-- The line of a result starts and ends with a bar. It is cut into five cells, and one more for
each byte of its verdicts that is a bar; only without such bytes it has the cells that are to tell
the result. -/
structure Result.IsRow (x : Result) (line : List Char) : Prop where
  starts : line.head? = some '|'
  ends : line.getLast? = some '|'
  length_eq : (Report.tableCells line).length = 5 + x.bars
  cells_iff : Report.tableCells line = x.cells.map Report.spaced ↔ x.bars = 0

namespace Result

/-- The line of a result, without its end. -/
def row (x : Result) : List Char :=
  '|' :: (['|'].intercalate (x.cells.map Report.spaced) ++ ['|'])

/-- The words of what was observed. -/
theorem observedCell_eq (observed : Option Expectation) :
    Report.observedCell observed = observed.elim "-" Expectation.wording := by
  cases observed <;> rfl

/-- The line of a result ends with a line feed. -/
theorem toList_tableRow (x : Result) : (Report.tableRow x).toList = x.row ++ ['\n'] := by
  unfold Report.tableRow
  simp [row, cells, Report.spaced, observedCell_eq, List.intercalate]

variable {x : Result}

/-- How many bars there are in the words of what was observed. -/
theorem count_bar_observed (observed : Option Expectation) :
    (observed.elim "-" Expectation.wording).toList.count '|' =
      observed.elim 0 Expectation.bars ∧
    '\n' ∉ (observed.elim "-" Expectation.wording).toList := by
  cases observed with
  | none => decide
  | some e => exact e.count_bar_wording

/-- Between the bars at both ends of the line of a result stand its cells, with bars between
them. -/
theorem tableCells_row (x : Result) :
    Report.tableCells x.row = (['|'].intercalate (x.cells.map Report.spaced)).splitOn '|' := by
  rw [Report.tableCells, row, List.tail_cons, List.dropLast_concat]

/-- The bars of the cells of a result are those of its verdicts, if its texts have none. -/
theorem count_bar_cells (hscenario : '|' ∉ x.scenario.toList)
    (hprimitive : '|' ∉ x.primitive.toList) :
    (x.cells.map Report.spaced).flatten.count '|' = x.bars := by
  have hstatus : (if x.passed then "PASS" else "FAIL").toList.count '|' = 0 := by
    cases x.passed <;> decide
  have hspaced (cell : String) : (Report.spaced cell).count '|' = cell.toList.count '|' := by
    simp [Report.spaced]
  simp only [cells, List.map_cons, List.map_nil, List.flatten_cons, List.flatten_nil,
    List.append_nil, List.count_append, hspaced, List.count_eq_zero.2 hscenario,
    List.count_eq_zero.2 hprimitive, x.expected.count_bar_wording.1,
    (count_bar_observed x.observed).1, hstatus, bars]
  omega

/-- **The line of a result** has a cell more for each byte of its verdicts that is a bar.

**Proof sketch.** There is one cell more than there are bars between the ends. Four of these stand
between the five parts of the line, and the others in the words of its verdicts. -/
theorem isRow_row (hscenario : '|' ∉ x.scenario.toList) (hprimitive : '|' ∉ x.primitive.toList) :
    x.IsRow x.row := by
  have hcount := count_bar_cells hscenario hprimitive
  have hlength : (Report.tableCells x.row).length = 5 + x.bars := by
    rw [tableCells_row, Text.length_splitOn, cells, List.map_cons, Text.count_intercalate_cons,
      ← List.map_cons, ← cells, hcount, List.length_map]
    exact Nat.add_right_comm 4 x.bars 1
  refine ⟨rfl, ?_, hlength, fun h => ?_, fun h => ?_⟩
  · rw [row, ← List.cons_append, List.getLast?_concat]
  · rw [h] at hlength
    simpa [cells] using hlength
  · rw [h, List.count_eq_zero] at hcount
    rw [tableCells_row]
    exact List.splitOn_intercalate '|'
      (fun cell hcell hbar => hcount (List.mem_flatten_of_mem hcell hbar)) (by simp [cells])

/-- The line of a result is one line. -/
theorem not_mem_row (hscenario : '\n' ∉ x.scenario.toList)
    (hprimitive : '\n' ∉ x.primitive.toList) : '\n' ∉ x.row := by
  have hstatus : '\n' ∉ (if x.passed then "PASS" else "FAIL").toList := by
    cases x.passed <;> decide
  simp [row, cells, Report.spaced, List.intercalate, hscenario, hprimitive,
    x.expected.count_bar_wording.2, (count_bar_observed x.observed).2, hstatus]

end Result

/-! ## The lines of a report -/

/-- Lines that end with line feeds are found again, in front of other lines. -/
theorem Text.splitOn_flatMap_append {lines : List (List Char)} (h : ∀ line ∈ lines, '\n' ∉ line)
    (rest : List Char) :
    (lines.flatMap (· ++ ['\n']) ++ rest).splitOn '\n' = lines ++ rest.splitOn '\n' := by
  induction lines with
  | nil => rfl
  | cons line lines ih =>
    obtain ⟨hline, hlines⟩ := List.forall_mem_cons.1 h
    rw [List.flatMap_cons, List.append_assoc, List.append_assoc, List.singleton_append,
      splitOn_append_cons hline, ih hlines, List.cons_append]

/-- A text without bars and line feeds. -/
def Text.IsCell (text : String) : Prop := '|' ∉ text.toList ∧ '\n' ∉ text.toList

/-- It can be decided whether there are bars or line feeds in a text. -/
instance (text : String) : Decidable (Text.IsCell text) :=
  inferInstanceAs (Decidable ('|' ∉ text.toList ∧ '\n' ∉ text.toList))

/-- Texts are put together without bars and line feeds. -/
theorem Text.IsCell.append {text text' : String} (h : IsCell text) (h' : IsCell text') :
    IsCell (text ++ text') := by
  rw [IsCell, String.toList_append, List.mem_append, List.mem_append, not_or, not_or]
  exact ⟨⟨h.1, h'.1⟩, h.2, h'.2⟩

/-- A number has no bars and no line feeds. -/
theorem Text.isCell_repr (n : Nat) : IsCell (Nat.repr n) := by
  rw [IsCell, Nat.repr, String.toList_ofList]
  exact ⟨Json.not_mem_toDigits (by decide) n, Json.not_mem_toDigits (by decide) n⟩

namespace Report

/-- The texts of a report have no bars and no line feeds. -/
structure Plain (r : Report) : Prop where
  title : Text.IsCell r.title
  campaign : Text.IsCell r.campaign
  timestamp : Text.IsCell r.timestamp
  results : ∀ x ∈ r.tally.results, Text.IsCell x.scenario ∧ Text.IsCell x.primitive ∧
    ∀ note ∈ x.note, Text.IsCell note

/-- The lines of the heading of a report. -/
def headingLines (r : Report) : List String :=
  ["# " ++ r.title, "", "- Campaign: " ++ r.campaign, "- Timestamp: " ++ r.timestamp,
    "- Total: " ++ Nat.repr r.tally.total.toNat, "- Passed: " ++ Nat.repr r.tally.passed.toNat,
    "- Failed: " ++ Nat.repr r.tally.failed.toNat, ""]

/-- The two lines that start the table. -/
def columnLines : List String :=
  ["| Scenario | Primitive | Expected | Observed | Status |",
    "|----------|-----------|----------|----------|--------|"]

/-- The lines below the table, up to the last line feed: none, or a heading and the notes. -/
def noteLines (results : List Result) : List String :=
  match results.filterMap fun x => x.note.map fun note => "- `" ++ x.scenario ++ "`: " ++ note with
  | [] => []
  | lines => "" :: "## Notes" :: "" :: lines

/-- Lines, one after the other. -/
def asText (lines : List String) : String := String.join (lines.map (· ++ "\n"))

/-- The first line stands in front of the others. -/
theorem asText_cons (line : String) (lines : List String) :
    asText (line :: lines) = line ++ ("\n" ++ asText lines) := by
  rw [asText, List.map_cons, String.join_cons, String.append_assoc, asText]

/-- The characters of lines, one after the other. -/
theorem toList_asText (lines : List String) :
    (asText lines).toList = (lines.map String.toList).flatMap (· ++ ['\n']) := by
  simp [asText, String.toList_join, List.flatMap_map]

/-- The heading is made of its lines. -/
theorem heading_eq (r : Report) : r.heading = asText r.headingLines := by
  have hfeeds : "\n\n" = "\n" ++ "\n" := rfl
  unfold heading headingLines
  rw [hfeeds]
  simp only [asText_cons, String.append_assoc, String.empty_append]
  rfl

/-- The start of the table is made of its lines. -/
theorem tableHead_eq : tableHead = asText columnLines := rfl

/-- The lines of the results. -/
theorem toList_rows (results : List Result) :
    (String.join (results.map tableRow)).toList =
      (results.map Result.row).flatMap (· ++ ['\n']) := by
  simp [String.toList_join, List.flatMap_map, Result.toList_tableRow]

/-- What stands below the table is made of its lines. -/
theorem notes_eq (results : List Result) : notes results = asText (noteLines results) := by
  have hlines : results.filterMap noteLine =
      (results.filterMap fun x => x.note.map fun note =>
        "- `" ++ x.scenario ++ "`: " ++ note).map (· ++ "\n") := by
    rw [List.map_filterMap]
    refine congrArg (List.filterMap · results) (funext fun x => ?_)
    rw [noteLine, Option.map_map]
    rfl
  rw [notes, noteLines, hlines]
  cases results.filterMap fun x => x.note.map fun note => "- `" ++ x.scenario ++ "`: " ++ note with
  | nil => rfl
  | cons line lines =>
    rw [asText_cons, asText_cons, asText_cons, asText]
    rfl

/-- The lines of the heading have no bars, and each is one line. -/
theorem Plain.isCell_headingLines {r : Report} (h : r.Plain) :
    ∀ line ∈ r.headingLines, Text.IsCell line := by
  simp only [headingLines, List.forall_mem_cons]
  have hcount := Text.isCell_repr
  exact ⟨.append (by decide) h.title, by decide, .append (by decide) h.campaign,
    .append (by decide) h.timestamp, .append (by decide) (hcount _),
    .append (by decide) (hcount _), .append (by decide) (hcount _), by decide,
    List.forall_mem_nil _⟩

/-- The lines below the table have no bars, and each is one line. -/
theorem Plain.isCell_noteLines {r : Report} (h : r.Plain) :
    ∀ line ∈ noteLines r.tally.results, Text.IsCell line := by
  have hnotes : ∀ line ∈ r.tally.results.filterMap fun x => x.note.map fun note =>
      "- `" ++ x.scenario ++ "`: " ++ note, Text.IsCell line := by
    intro line hline
    obtain ⟨x, hx, hnote⟩ := List.mem_filterMap.1 hline
    obtain ⟨note, hsome, rfl⟩ := Option.map_eq_some_iff.1 hnote
    obtain ⟨hscenario, -, hplain⟩ := h.results x hx
    exact (((show Text.IsCell "- `" by decide).append hscenario).append (by decide)).append
      (hplain note hsome)
  rw [noteLines]
  split
  · exact List.forall_mem_nil _
  · next lines hlines =>
    simp only [List.forall_mem_cons]
    exact ⟨by decide, by decide, by decide, hnotes⟩

/-- **The lines of a report**: those of its heading, the start of the table, one for each result,
and the notes. -/
theorem Plain.splitOn_markdown {r : Report} (h : r.Plain) :
    r.markdown.toList.splitOn '\n' = r.headingLines.map String.toList ++
      (columnLines.map String.toList ++ (r.tally.results.map Result.row ++
        ((noteLines r.tally.results).map String.toList ++ [[]]))) := by
  have hheading : ∀ line ∈ r.headingLines.map String.toList, '\n' ∉ line :=
    List.forall_mem_map.2 fun line hline => (h.isCell_headingLines line hline).2
  have hcolumns : ∀ line ∈ columnLines.map String.toList, '\n' ∉ line := by decide
  have hrows : ∀ line ∈ r.tally.results.map Result.row, '\n' ∉ line :=
    List.forall_mem_map.2 fun x hx =>
      Result.not_mem_row (h.results x hx).1.2 (h.results x hx).2.1.2
  have hnotes : ∀ line ∈ (noteLines r.tally.results).map String.toList, '\n' ∉ line :=
    List.forall_mem_map.2 fun line hline => (h.isCell_noteLines line hline).2
  rw [markdown, heading_eq, tableHead_eq, notes_eq, String.toList_append, String.toList_append,
    String.toList_append, toList_asText, toList_asText, toList_asText, toList_rows,
    List.append_assoc, List.append_assoc, Text.splitOn_flatMap_append hheading,
    Text.splitOn_flatMap_append hcolumns, Text.splitOn_flatMap_append hrows,
    ← List.append_nil (((noteLines r.tally.results).map String.toList).flatMap _),
    Text.splitOn_flatMap_append hnotes]
  rfl

/-- Below the results there is an empty line, which may be the last one. -/
theorem exists_noteLines_eq (results : List Result) :
    ∃ after, (noteLines results).map String.toList ++ [[]] = [] :: after := by
  rw [noteLines]
  split
  · exact ⟨[], rfl⟩
  · exact ⟨_, rfl⟩

/-- **The table of a report.** If the texts of a report have no bars and no line feeds, its lines
are some without bars, the two that start the table, one for each result in order, an empty one and
some without bars. The line of a result starts and ends with a bar. Between these it is cut at bars
into five cells and one more for each byte of its verdicts that is a bar; the cells are the
scenario, the primitive, the verdict that was expected, the one that was observed or a dash, and
whether the result passed, each with a space on either side, exactly if there is no such byte.

**Proof sketch.** The words of a verdict have a bar for each of its bytes that is one, and no other
part of a line has any besides those around the cells. -/
theorem table_markdown {r : Report} (h : r.Plain) :
    ∃ before rows after, r.markdown.toList.splitOn '\n' =
        before ++ (columnLines.map String.toList ++ (rows ++ [] :: after)) ∧
      (∀ line ∈ before ++ after, '|' ∉ line) ∧
      List.Forall₂ Result.IsRow r.tally.results rows := by
  obtain ⟨after, hafter⟩ := exists_noteLines_eq r.tally.results
  refine ⟨r.headingLines.map String.toList, r.tally.results.map Result.row, after, ?_, ?_, ?_⟩
  · rw [h.splitOn_markdown, hafter]
  · rw [List.forall_mem_append]
    refine ⟨List.forall_mem_map.2 fun line hline => (h.isCell_headingLines line hline).1,
      fun line hline => ?_⟩
    have hbelow : line ∈ (noteLines r.tally.results).map String.toList ++ [[]] := by
      rw [hafter]
      exact List.mem_cons_of_mem _ hline
    rcases List.mem_append.1 hbelow with hnote | hend
    · obtain ⟨text, htext, rfl⟩ := List.mem_map.1 hnote
      exact (h.isCell_noteLines text htext).1
    · obtain rfl := List.mem_singleton.1 hend
      exact List.not_mem_nil
  · rw [List.forall₂_map_right_iff, List.forall₂_same]
    exact fun x hx => Result.isRow_row (h.results x hx).1.1 (h.results x hx).2.1.1

/-- A scenario that is expected to fail on a bar: nothing is copied, and the bar is missing. -/
def barScenario : Scenario where
  name := "missing_bar"
  primitive := "noop"
  source := "|"
  expect := .fail ⟨0, 0, 0x7c⟩

/-- A scenario that is expected to fail, and does not. -/
def wrongScenario : Scenario where
  name := "not_missing"
  primitive := "reference"
  expect := .fail ⟨0, 0, 0x68⟩

/-- The report on both scenarios. -/
def barReport : Report where
  title := "T"
  campaign := "c"
  timestamp := "2026-10-19T00:00:00.000Z"
  tally := .ofResults
    [.ofAttempt "memcpy" barScenario (barScenario.attempt .noop) 0,
      .ofAttempt "memcpy" wrongScenario (wrongScenario.attempt .reference) 0]

/-- The texts of the report have no bars. -/
theorem plain_barReport : barReport.Plain :=
  ⟨by decide, by decide, by decide, by decide +kernel⟩

/-- The theorem on a report with a verdict on a bar, and with a note. -/
theorem table_markdown_barReport :
    barReport.Plain ∧ ∃ before rows after, barReport.markdown.toList.splitOn '\n' =
        before ++ (columnLines.map String.toList ++ (rows ++ [] :: after)) ∧
      (∀ line ∈ before ++ after, '|' ∉ line) ∧
      List.Forall₂ Result.IsRow barReport.tally.results rows :=
  ⟨plain_barReport, table_markdown plain_barReport⟩

/-- **A line of a table may have seven cells** although no text of the report has a bar: that of a
result which passed, because the verdict that was expected and observed is on a bar. -/
theorem exists_row_not_five_cells :
    barReport.Plain ∧ ∃ row row',
      (barReport.markdown.toList.splitOn '\n').filter (fun line => decide ('|' ∈ line)) =
        columnLines.map String.toList ++ [row, row'] ∧
      (tableCells row).length = 7 ∧ (tableCells row').length = 5 := by
  refine ⟨plain_barReport,
    Result.row (.ofAttempt "memcpy" barScenario (barScenario.attempt .noop) 0),
    Result.row (.ofAttempt "memcpy" wrongScenario (wrongScenario.attempt .reference) 0), ?_,
    by decide +kernel, by decide +kernel⟩
  rw [plain_barReport.splitOn_markdown]
  decide +kernel

end Report

end CopyTrial
