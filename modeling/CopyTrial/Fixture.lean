import CopyTrial.Expectation
import CopyTrial.Trial

/-!
# Fixtures

A scenario is a trial with the verdict expected of it. Its primitive is kept as text and resolved
only when it is run, so that an unknown name spoils one scenario and not its fixture.

## Main definitions

* `Scenario`, `Fixture` — a scenario, and a named family of scenarios.
* `Fixture.builtin` — the fixture that is run unless another is given.
* `Fixture.codec`, `Fixture.json` — how a fixture stands in a document, and the document.
-/

set_option autoImplicit false

namespace CopyTrial

/-- A trial of a primitive with the verdict expected. -/
structure Scenario where
  name : String
  primitive : String
  /-- The literal to be copied. -/
  source : String := helloWorld
  fill : UInt8 := 0
  expect : Expectation
  deriving DecidableEq, Repr

namespace Scenario

/-- The fields of a scenario; the source and the fill may be left out. -/
def recordType : RecordType Scenario where
  wanted := "struct Scenario"
  fields :=
    .cons (.required "name" .text) <|
    .cons (.required "primitive" .text) <|
    .cons (.defaulting "source" .text helloWorld) <|
    .cons (.defaulting "fill" .byte 0) <|
    .cons (.required "expect" Expectation.codec) .nil
  ofRow row := ⟨row.1, row.2.1, row.2.2.1, row.2.2.2.1, row.2.2.2.2.1⟩
  toRow s := (s.name, s.primitive, s.source, s.fill, s.expect, ())

/-- How a scenario stands in a document. -/
def codec : Codec Scenario := .record recordType

/-- The trial of a scenario. -/
def trial (s : Scenario) : Trial := ⟨Bytes.ofText s.source, s.fill⟩

end Scenario

/-- A family of scenarios. -/
structure Fixture where
  version : String
  family : String
  cases : List Scenario
  deriving DecidableEq, Repr

namespace Fixture

/-- The fields of a fixture. -/
def recordType : RecordType Fixture where
  wanted := "struct ScenarioSet"
  fields :=
    .cons (.required "version" .text) <|
    .cons (.required "family" .text) <|
    .cons (.required "cases" (.list Scenario.codec)) .nil
  ofRow row := ⟨row.1, row.2.1, row.2.2.1⟩
  toRow f := (f.version, f.family, f.cases, ())

/-- How a fixture stands in a document. -/
def codec : Codec Fixture := .record recordType

/-- The fixture as a JSON document. -/
def json (f : Fixture) : String := codec.pretty f

/-- A failing verdict at an index, of a byte where a character should be. -/
def failing (index : UInt64) (actual : UInt8) (expected : Char) : Expectation :=
  .fail ⟨index, actual, expected.toUInt8⟩

/-- The scenarios that behave as expected whenever the primitives and the trial are sound. -/
def builtin : Fixture where
  version := "v1"
  family := "memcpy/hello_world"
  cases :=
    [{ name := "reference_copies_all", primitive := "reference", expect := .pass },
      { name := "wordwise_copies_all", primitive := "wordwise", expect := .pass },
      { name := "extern_memcpy_c", primitive := "extern", expect := .pass },
      { name := "noop_fails_at_first_byte", primitive := "noop", expect := failing 0 0 'h' },
      { name := "truncate_4_fails_at_o", primitive := "truncate:4", expect := failing 4 0 'o' },
      { name := "truncate_5_fails_at_space", primitive := "truncate:5",
        expect := failing 5 0 ' ' },
      { name := "truncate_11_masked_by_zero_fill", primitive := "truncate:11", expect := .pass },
      { name := "truncate_11_poisoned_fill", primitive := "truncate:11", fill := 0xFF,
        expect := failing 11 0xFF '\x00' }]

end Fixture

end CopyTrial
