import CopyTrial.Artifact
import CopyTrial.Campaign.Report
import CopyTrial.Proofs.Expectation

/-!
# Reports and indices are read back

The JSON form of a report holds everything that the report does, whatever the results are, and so
does that of an index of artifacts.

## Main results

* `Report.means`, `ArtifactIndex.means` — the document of a report means the report, and that of an
  index the index.
* `Report.parse_json`, `ArtifactIndex.parse_json` — the JSON forms are read back.
-/

set_option autoImplicit false

namespace CopyTrial

open Codec

/-- The document of a result means the result. -/
theorem Result.means (r : Result) : Result.codec.Means 3 (Result.codec.write r) r := by
  refine Means.record_write (by decide) ⟨.required _ ((Means.text _).mono (Nat.zero_le 2)),
    .required _ ((Means.text _).mono (Nat.zero_le 2)),
    .required _ ((Means.text _).mono (Nat.zero_le 2)),
    .required _ ((Means.flag _).mono (Nat.zero_le 2)), .required _ (Expectation.means _),
    .nullable _ ?_, .optional _ ?_, .required _ ((Means.word64 _).mono (Nat.zero_le 2)), trivial⟩
    rfl
  · exact fun e _ => ⟨e.means, by cases e <;> nofun⟩
  · exact fun s _ => ⟨(Means.text s).mono (Nat.zero_le 2), nofun⟩

/-- The document of a tally means the tally. -/
theorem Tally.means (t : Tally) : Tally.codec.Means 5 (Tally.codec.write t) t :=
  Means.record_write (by decide) ⟨.required _ ((Means.size _).mono (Nat.zero_le 4)),
    .required _ ((Means.size _).mono (Nat.zero_le 4)),
    .required _ ((Means.size _).mono (Nat.zero_le 4)),
    .required _ (Means.list_write fun r _ => r.means), trivial⟩ rfl

/-- **The document of a report means the report.** -/
theorem Report.means (r : Report) : Report.codec.Means 6 (Report.codec.write r) r :=
  Means.record_write (by decide) ⟨.required _ ((Means.text _).mono (Nat.zero_le 5)),
    .required _ ((Means.text _).mono (Nat.zero_le 5)),
    .required _ ((Means.text _).mono (Nat.zero_le 5)), .required _ r.tally.means, trivial⟩ rfl

/-- **The JSON form of a report is read as the report.** -/
theorem Report.parse_json (r : Report) : Report.codec.parse r.json = .ok r :=
  r.means.parse_pretty (by decide)

/-- The document of an artifact means the artifact. -/
theorem Artifact.means (a : Artifact) : Artifact.codec.Means 1 (Artifact.codec.write a) a :=
  Means.record_write (by decide) ⟨.required _ (Means.text _), .required _ (Means.text _),
    .required _ (Means.text _), .optional _ fun w _ => ⟨Means.word64 w, nofun⟩, trivial⟩ rfl

/-- **The document of an index means the index.** -/
theorem ArtifactIndex.means (i : ArtifactIndex) :
    ArtifactIndex.codec.Means 3 (ArtifactIndex.codec.write i) i :=
  Means.record_write (by decide) ⟨.required _ ((Means.word32 _).mono (Nat.zero_le 2)),
    .required _ ((Means.text _).mono (Nat.zero_le 2)),
    .required _ ((Means.text _).mono (Nat.zero_le 2)),
    .required _ (Means.list_write fun a _ => a.means), trivial⟩ rfl

/-- The JSON form of an index is read as the index. -/
theorem ArtifactIndex.parse_json (i : ArtifactIndex) : ArtifactIndex.codec.parse i.json = .ok i :=
  i.means.parse_pretty (by decide)

end CopyTrial
