import CopyTrial.Trial

/-!
# Primitives in use

A primitive is called in trials, or directly. Each wrapper passes a call on to what is within it, and
one that counts calls counts it; what is within all of them receives it. A trial calls its primitive
itself, so what is received shows how often it does so, and with what.

## Main definitions

* `Call`, `Primitive.call` — a call, and what comes of it.
* `Device` — a primitive in use, and the calls received within its wrappers.
* `Trial.copyInto`, `Trial.run`, `Trial.runReportingTo` — trials of a device.
* `Bench`, `Bench.perform` — a trial and a device, and one use of them.
-/

set_option autoImplicit false

namespace CopyTrial

/-- What a primitive is called with. -/
structure Call where
  dest : Bytes
  src : Bytes
  size : Nat
  deriving DecidableEq, Repr

/-- A call: what is in the destination after it, the primitive with the counts that its counters
show then, and the calls that were received within all wrappers. -/
def Primitive.call : Primitive → Call → Bytes × Primitive × List Call
  | .counted calls inner, c =>
    let (left, inner, received) := inner.call c
    (left, .counted (calls + 1) inner, received)
  | .boxed inner, c =>
    let (left, inner, received) := inner.call c
    (left, .boxed inner, received)
  | .borrowed inner, c =>
    let (left, inner, received) := inner.call c
    (left, .borrowed inner, received)
  | p, c => (p.copy c.dest c.src c.size, p, [c])

/-- A primitive in use, with the calls that have been received within its wrappers, the first one
first. -/
structure Device where
  primitive : Primitive
  received : List Call := []

/-- Calls a device: what is in the destination after it. -/
def Device.call (c : Call) : StateM Device Bytes := fun device =>
  let (left, primitive, received) := device.primitive.call c
  (left, { primitive, received := device.received ++ received })

namespace Trial

/-- Copies the source into a new destination: what is in it then. -/
def copyInto (t : Trial) : StateM Device Bytes :=
  Device.call ⟨t.destination, t.source, t.source.length⟩

/-- Runs a trial: its verdict. -/
def run (t : Trial) : StateM Device Verdict := do
  let left ← t.copyInto
  pure (.ofDivergence (firstDivergence t.source left))

/-- Runs a trial, and writes the diagnostic line if the verdict is failing. There is no verdict if
the line did not fit. -/
def runReportingTo (t : Trial) (sink : Sink) : StateM Device (Option Verdict × Sink) := do
  match ← t.run with
  | .pass => pure (some .pass, sink)
  | .fail d =>
    let line := d.diagnosticLine
    pure (if sink.fits line.length then some (.fail d) else none, sink.write line)

end Trial

/-- A trial, and the device that it is run with. -/
structure Bench where
  trial : Trial
  device : Device

/-- One use of a bench. -/
inductive Use where
  /-- The destination is filled with another byte from now on. -/
  | refill (fill : UInt8)
  /-- Looks at the source. -/
  | source
  /-- Calls the device directly. -/
  | call (c : Call)
  /-- Copies the source into a new destination. -/
  | copyInto
  /-- Runs the trial. -/
  | run
  /-- Runs the trial and reports to a place for output. -/
  | report (sink : Sink)

/-- What a use of a bench gives. -/
inductive Answer where
  | done
  /-- The source, or what is in a destination after a call. -/
  | bytes (content : Bytes)
  | verdict (verdict : Verdict)
  /-- The verdict if it could be reported, and the place for output then. -/
  | reported (verdict : Option Verdict) (sink : Sink)

namespace Bench

/-- Runs the trial with the device, or uses the device alone. -/
def withDevice {α : Type} (action : Trial → StateM Device α) : StateM Bench α := fun bench =>
  let (a, device) := action bench.trial bench.device
  (a, { bench with device })

/-- One use of a bench: what it gives. -/
def perform : Use → StateM Bench Answer
  | .refill fill => fun bench => (.done, { bench with trial := { bench.trial with fill } })
  | .source => fun bench => (.bytes bench.trial.source, bench)
  | .call c => .bytes <$> withDevice fun _ => Device.call c
  | .copyInto => .bytes <$> withDevice Trial.copyInto
  | .run => .verdict <$> withDevice Trial.run
  | .report sink =>
    (fun (verdict, sink) => .reported verdict sink) <$> withDevice (·.runReportingTo sink)

end Bench

end CopyTrial
