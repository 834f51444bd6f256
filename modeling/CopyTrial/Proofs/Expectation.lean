import CopyTrial.Expectation
import CopyTrial.Proofs.Json.Means

/-!
# Expectations are read back

## Main results

* `DivergenceRecord.means`, `Expectation.means` — the documents of divergences and of expectations
  mean them.
-/

set_option autoImplicit false

namespace CopyTrial

open Codec

/-- The document of a divergence means the divergence, whatever it is called in messages. -/
theorem DivergenceRecord.means (wanted : String) (r : DivergenceRecord) :
    (Codec.record (recordType wanted)).Means 1 ((Codec.record (recordType wanted)).write r) r := by
  have hnames : (recordType wanted).fields.names = ["index", "actual", "expected"] := rfl
  refine Means.record_write (hnames ▸ by decide) ?_ rfl
  exact ⟨.required _ (.size _), .required _ (.byte _), .required _ (.byte _), trivial⟩

/-- **The document of an expectation means the expectation**, whichever alternative it is. -/
theorem Expectation.means (e : Expectation) :
    Expectation.codec.Means 2 (Expectation.codec.write e) e := by
  cases e with
  | pass => exact (Means.variant_name rfl rfl).mono (Nat.zero_le 2)
  | fail r =>
    have hmeans := DivergenceRecord.means "struct variant Expectation::Fail" r
    exact Means.variant rfl hmeans

end CopyTrial
