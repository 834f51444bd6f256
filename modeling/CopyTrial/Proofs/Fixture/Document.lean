import CopyTrial.Fixture
import CopyTrial.Proofs.Campaign.Report

/-!
# Fixtures are read back

A fixture is written with all its fields, those that may be left out included, so its document says
everything that the fixture does. With it, all documents that are kept in files are read back.

## Main results

* `Scenario.means`, `Fixture.means` — the document of a scenario means the scenario, and that of a
  fixture the fixture.
* `documents_read_back` — fixtures, reports and indices are read back from their JSON forms.
-/

set_option autoImplicit false

namespace CopyTrial

open Codec

/-- The document of a scenario means the scenario. -/
theorem Scenario.means (s : Scenario) : Scenario.codec.Means 3 (Scenario.codec.write s) s :=
  Means.record_write (by decide) ⟨.required _ ((Means.text _).mono (Nat.zero_le 2)),
    .required _ ((Means.text _).mono (Nat.zero_le 2)),
    .defaulting _ _ ((Means.text _).mono (Nat.zero_le 2)),
    .defaulting _ _ ((Means.byte _).mono (Nat.zero_le 2)), .required _ (Expectation.means _),
    trivial⟩ rfl

/-- **The document of a fixture means the fixture.** -/
theorem Fixture.means (f : Fixture) : Fixture.codec.Means 5 (Fixture.codec.write f) f :=
  Means.record_write (by decide) ⟨.required _ ((Means.text _).mono (Nat.zero_le 4)),
    .required _ ((Means.text _).mono (Nat.zero_le 4)),
    .required _ (Means.list_write fun s _ => s.means), trivial⟩ rfl

/-- The JSON form of a fixture is read as the fixture. -/
theorem Fixture.parse_json (f : Fixture) : Fixture.codec.parse f.json = .ok f :=
  f.means.parse_pretty (by decide)

/-- **Documents that are kept in files are read back**: every fixture, every report and every index
of artifacts is what is read from its JSON form, whatever texts, numbers and absent values it
holds. -/
theorem documents_read_back :
    (∀ f : Fixture, Fixture.codec.parse f.json = .ok f) ∧
      (∀ r : Report, Report.codec.parse r.json = .ok r) ∧
      ∀ i : ArtifactIndex, ArtifactIndex.codec.parse i.json = .ok i :=
  ⟨Fixture.parse_json, Report.parse_json, ArtifactIndex.parse_json⟩

end CopyTrial
