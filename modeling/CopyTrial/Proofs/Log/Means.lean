import CopyTrial.Proofs.Expectation
import CopyTrial.Proofs.Log.RoundTrip

/-!
# Lines are read as their entries

The line of an entry is read as the entry at once, without the detour by which a validated line is
kept as a free-form value first. No rule of a log is looked at, so this holds of every entry whose
details survive being written.

## Main results

* `Entry.means` — the document of an entry means the entry.
* `Entry.parse_line` — the line of an entry is read as the entry.
-/

set_option autoImplicit false

namespace CopyTrial

open Codec

/-- The name of a level means the level. -/
theorem Level.means (l : Level) : Level.codec.Means 0 (Level.codec.write l) l := by
  cases l <;> exact Means.variant_name rfl rfl

/-- The name of an outcome means the outcome. -/
theorem Outcome.means (o : Outcome) : Outcome.codec.Means 0 (Outcome.codec.write o) o := by
  cases o <;> exact Means.variant_name rfl rfl

namespace Entry

/-- **The document of an entry means the entry**, if its details survive being written. -/
theorem means {e : Entry} (h : e.Loggable) :
    Entry.codec.Means 127 (Entry.codec.write e) e := by
  refine Means.record_write nodup_names ⟨.required _ ((Means.text _).mono (Nat.zero_le _)),
    .required _ ((Means.text _).mono (Nat.zero_le _)),
    .required _ ((Level.means _).mono (Nat.zero_le _)),
    .required _ ((Means.text _).mono (Nat.zero_le _)), .optional _ ?_, .optional _ ?_,
    .optional _ ?_, .optional _ ?_, .optional _ ?_, .optional _ ?_, .optional _ ?_,
    .optional _ ?_, .optional _ ?_, .optional _ ?_, .optional _ ?_, trivial⟩ rfl
  · exact fun s _ => ⟨(Means.text s).mono (Nat.zero_le _), nofun⟩
  · exact fun s _ => ⟨(Means.text s).mono (Nat.zero_le _), nofun⟩
  · exact fun s _ => ⟨(Means.text s).mono (Nat.zero_le _), nofun⟩
  · exact fun w _ => ⟨(Means.size w).mono (Nat.zero_le _), nofun⟩
  · exact fun b _ => ⟨(Means.byte b).mono (Nat.zero_le _), nofun⟩
  · exact fun o _ => ⟨o.means.mono (Nat.zero_le _), nofun⟩
  · exact fun b _ => ⟨(Means.byte b).mono (Nat.zero_le _), nofun⟩
  · exact fun r _ => ⟨(DivergenceRecord.means _ r).mono (by decide), nofun⟩
  · exact fun w _ => ⟨(Means.word64 w).mono (Nat.zero_le _), nofun⟩
  · exact fun refs _ =>
      ⟨(Means.list_write fun s _ => Means.text s).mono (by decide), nofun⟩
  · exact fun v hv => ⟨.freeForm (v.canonical.plain (h v hv).2.1) (h v hv).2.2, (h v hv).1⟩

/-- **The line of an entry is read as the entry.** -/
theorem parse_line {e : Entry} (h : e.Loggable) : Entry.codec.parse e.line = .ok e :=
  (means h).parse_render (Nat.le_refl _) .compact

end Entry

end CopyTrial
