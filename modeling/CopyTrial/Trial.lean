import CopyTrial.Primitive
import CopyTrial.Verdict

/-!
# Trials

In a trial a primitive copies a source into a destination of the same length that has been filled
with one byte. The source is a literal with a zero byte after it, so it is never empty.

## Main definitions

* `Trial` — a literal and a fill.
* `Trial.outcome`, `Trial.verdict` — what a primitive leaves in the destination, and the verdict.
* `Sink`, `Trial.report` — a place for diagnostics that may be full, and the trial that reports
  there.
-/

set_option autoImplicit false

namespace CopyTrial

/-- The literal that is copied unless another is given. -/
def helloWorld : String := "hello world"

/-- A literal to copy, and the byte that the destination is filled with. -/
structure Trial where
  literal : Bytes
  fill : UInt8 := 0
  deriving DecidableEq

namespace Trial

/-- The trial with the usual literal. -/
def usual : Trial where
  literal := Bytes.ofText helloWorld

/-- The literal with a zero byte after it. -/
def source (t : Trial) : Bytes := t.literal ++ [0]

/-- The destination before the copy: as long as the source, every byte the fill. -/
def destination (t : Trial) : Bytes := List.replicate t.source.length t.fill

/-- The destination after one call of the primitive with the whole source. -/
def outcome (t : Trial) (p : Primitive) : Bytes :=
  p.copy t.destination t.source t.source.length

/-- The verdict on a primitive. -/
def verdict (t : Trial) (p : Primitive) : Verdict :=
  .ofDivergence (firstDivergence t.source (t.outcome p))

end Trial

/-- A place for output: what it holds, and how much it can hold if that is limited. -/
structure Sink where
  written : Bytes := []
  capacity : Option Nat := none

namespace Sink

/-- Whether so many more bytes fit. -/
def fits (sink : Sink) (count : Nat) : Bool :=
  match sink.capacity with
  | none => true
  | some capacity => sink.written.length + count ≤ capacity

/-- Writes bytes, of which only those that fit arrive. -/
def write (sink : Sink) (bytes : Bytes) : Sink :=
  match sink.capacity with
  | none => { sink with written := sink.written ++ bytes }
  | some capacity =>
    { sink with written := sink.written ++ bytes.take (capacity - sink.written.length) }

end Sink

/-- A trial that reports its verdict: nothing is written for a passing one, and the diagnostic line
for a failing one. There is no verdict if the line did not fit. -/
def Trial.report (t : Trial) (p : Primitive) (sink : Sink) : Option Verdict × Sink :=
  match t.verdict p with
  | .pass => (some .pass, sink)
  | .fail d =>
    let line := d.diagnosticLine
    (if sink.fits line.length then some (.fail d) else none, sink.write line)

end CopyTrial
