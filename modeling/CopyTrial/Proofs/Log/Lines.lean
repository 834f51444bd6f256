import CopyTrial.Log.Emitter
import CopyTrial.Proofs.Json.OneLine
import CopyTrial.Proofs.Log.RoundTrip
import CopyTrial.Proofs.Text.Lines

/-!
# Logs of entries

The lines of entries, written one after the other, are the lines of the log. Each is found where
it was written and is not blank, so a log has as many content lines as entries, and its violations
are the rules that its entries break.

## Main definitions

* `logText` — the log of entries.

## Main results

* `contentLines_logText` — the content lines of a log are the lines of its entries.
* `validateText_logText` — the violations of a log.
-/

set_option autoImplicit false

namespace CopyTrial

open Json

/-! ## The line of an entry -/

namespace Entry

/-- The line of an entry stands between braces. -/
theorem line_eq (e : Entry) : ∃ cs, e.line.toList = '\x7b' :: (cs ++ ['\x7d']) := by
  obtain ⟨cs, hcs⟩ := render_object_eq 0 (recordType.fields.write (recordType.toRow e))
  exact ⟨cs, by rw [line, Codec.compact, compact, String.toList_ofList]; exact hcs⟩

/-- No line ends inside the line of an entry. -/
theorem not_mem_line (e : Entry) : '\n' ∉ e.line.toList ∧ '\r' ∉ e.line.toList := by
  have hvisible : Visible e.line.toList := by
    rw [line, Codec.compact, compact, String.toList_ofList]
    exact visible_render 0 _
  exact ⟨fun h => absurd (hvisible _ h) (by decide), fun h => absurd (hvisible _ h) (by decide)⟩

/-- There are no blanks around the line of an entry. -/
theorem trim_line (e : Entry) : Text.trim e.line = e.line := by
  obtain ⟨cs, hcs⟩ := e.line_eq
  rw [Text.trim, hcs, Text.trimChars_eq_self cs rfl rfl, ← hcs, String.ofList_toList]

/-- The line of an entry is not empty. -/
theorem line_ne_empty (e : Entry) : e.line ≠ "" := by
  obtain ⟨cs, hcs⟩ := e.line_eq
  intro h
  rw [h] at hcs
  cases hcs

end Entry

/-! ## The lines of a log -/

/-- The log of entries: their lines, each with a line feed at its end. -/
def logText (entries : List Entry) : String :=
  String.ofList ((entries.map fun e => e.line.toList).flatMap (· ++ ['\n']))

/-- A log goes on with the line of a further entry. -/
theorem logText_append_singleton (entries : List Entry) (e : Entry) :
    logText (entries ++ [e]) = logText entries ++ e.line ++ "\n" := by
  rw [← String.toList_inj]
  simp [logText]

/-- The lines of a log are the lines of its entries. -/
theorem lines_logText (entries : List Entry) :
    Text.lines (logText entries) = entries.map Entry.line := by
  have hlines : ∀ line ∈ entries.map fun e => e.line.toList, '\n' ∉ line ∧ '\r' ∉ line := by
    intro line hline
    obtain ⟨e, -, rfl⟩ := List.mem_map.1 hline
    exact e.not_mem_line
  rw [Text.lines, logText, String.toList_ofList, Text.linesFrom_flatMap hlines, List.map_map]
  exact List.map_congr_left fun e _ => String.ofList_toList

/-- **The content lines of a log are the lines of its entries**, numbered from 1. -/
theorem contentLines_logText (entries : List Entry) :
    contentLines (logText entries) = (entries.zipIdx 1).map fun x => (x.2, x.1.line) := by
  have htrim : (entries.map Entry.line).map Text.trim = entries.map Entry.line := by
    rw [List.map_map]
    exact List.map_congr_left fun e _ => e.trim_line
  rw [contentLines, lines_logText, htrim, List.zipIdx_map, List.filterMap_map,
    ← List.filterMap_eq_map]
  congr 1
  funext x
  exact if_neg x.1.line_ne_empty

/-- **The violations of a log are the rules that its entries break**, each with the number of the
line. -/
theorem validateText_logText {entries : List Entry} (h : ∀ e ∈ entries, e.Loggable) :
    validateText (logText entries) =
      (entries.length, (entries.zipIdx 1).flatMap fun x => x.1.faults.map fun b => ⟨x.2, b⟩) := by
  simp only [validateText, contentLines_logText, List.length_map, List.length_zipIdx,
    List.flatMap_map]
  rw [List.flatMap_def, List.flatMap_def, Prod.mk.injEq]
  refine ⟨rfl, congrArg List.flatten (List.map_congr_left fun x hx => ?_)⟩
  exact Entry.lineViolations_line (h x.1 (List.fst_mem_of_mem_zipIdx hx)) x.2

end CopyTrial
