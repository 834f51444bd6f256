import CopyTrial.Json.Variant
import CopyTrial.Verdict

/-!
# Expectations

A verdict as it is written in fixtures, reports and logs, where an index has 64 bits.

## Main definitions

* `DivergenceRecord` — a divergence with an index of 64 bits, and its codec.
* `Expectation` — passing, or failing with a divergence; its wording and its codec.
-/

set_option autoImplicit false

namespace CopyTrial

/-- A divergence with an index of 64 bits. -/
structure DivergenceRecord where
  index : UInt64
  actual : UInt8
  expected : UInt8
  deriving DecidableEq, Repr

namespace DivergenceRecord

/-- The record of a divergence. -/
def ofDivergence (d : Divergence) : DivergenceRecord :=
  ⟨UInt64.ofNat d.index, d.actual, d.expected⟩

/-- The divergence of a record. -/
def divergence (r : DivergenceRecord) : Divergence := ⟨r.index.toNat, r.actual, r.expected⟩

/-- The fields of a record that a message calls by the given name. -/
def recordType (wanted : String) : RecordType DivergenceRecord where
  wanted := wanted
  fields :=
    .cons (.required "index" .size) <|
    .cons (.required "actual" .byte) <|
    .cons (.required "expected" .byte) .nil
  ofRow row := ⟨row.1, row.2.1, row.2.2.1⟩
  toRow r := (r.index, r.actual, r.expected, ())

/-- How a divergence stands in a log. -/
def codec : Codec DivergenceRecord := .record (recordType "struct DivergenceRecord")

end DivergenceRecord

/-- The verdict that is expected of a trial, or was observed. -/
inductive Expectation where
  | pass
  | fail (divergence : DivergenceRecord)
  deriving DecidableEq, Repr

namespace Expectation

/-- A verdict in the form of an expectation. -/
def ofVerdict : Verdict → Expectation
  | .pass => .pass
  | .fail d => .fail (.ofDivergence d)

/-- An expectation in words. -/
def wording : Expectation → String
  | .pass => "pass"
  | .fail r => "fail " ++ r.divergence.wording

/-- The document of an expectation. -/
def write : Expectation → Json
  | .pass => .text "pass"
  | .fail r => .object [("fail", DivergenceRecord.codec.write r)]

/-- How an expectation stands in documents. -/
def codec : Codec Expectation :=
  .variants write
    [("pass", .bare .pass),
      ("fail", .full .fail (DivergenceRecord.recordType "struct variant Expectation::Fail"))]

end Expectation

end CopyTrial
