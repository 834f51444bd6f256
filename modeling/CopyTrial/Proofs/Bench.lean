import Mathlib.Logic.Function.Iterate
import CopyTrial.Bench

/-!
# What is left of the use of a primitive

However a primitive is wrapped, a call of it comes through to what is within the wrappers once, with
what it was called with, and every counter counts it once. A trial calls its primitive once, with a
destination and a size that are as long as its source. So in the end of any sequence of uses of a
bench each counter shows the number of calls; and nothing else is left: what a use gives is what it
would with a new trial, of the same literal and the present fill, and the bare primitive.

## Main definitions

* `Wrapper`, `Primitive.wrapped` — ways to wrap a primitive, and a primitive in new wrappers.
* `Use.callsOn`, `Use.answerOn` — the calls that a use of a bench makes, and what it gives with a
  new trial and a bare primitive.
* `Bench.performAll`, `Use.filled` — a sequence of uses, and the fill that each of them finds.

## Main results

* `Primitive.call_eq` — what comes of a call.
* `Bench.perform_eq`, `Bench.performAll_eq` — what comes of a use, and of a sequence of uses.
* `Bench.performAll_wrapped` — what is left of a sequence of uses of a primitive in wrappers.
-/

set_option autoImplicit false

namespace CopyTrial

/-! ## Wrappers -/

/-- A way to wrap a primitive. -/
inductive Wrapper where
  | counted
  | boxed
  | borrowed
  deriving DecidableEq, Repr

namespace Primitive

/-- A primitive in new wrappers, the outermost one first. -/
def wrapped (base : Primitive) : List Wrapper → Primitive
  | [] => base
  | .counted :: ws => .counted 0 (base.wrapped ws)
  | .boxed :: ws => .boxed (base.wrapped ws)
  | .borrowed :: ws => .borrowed (base.wrapped ws)

/-- Wrappers do not change the name. -/
theorem name_wrapped (base : Primitive) (ws : List Wrapper) :
    (base.wrapped ws).name = base.name := by
  induction ws with
  | nil => rfl
  | cons w ws ih => cases w <;> exact ih

/-- Wrappers do not change what is copied. -/
theorem copy_wrapped (base : Primitive) (ws : List Wrapper) :
    (base.wrapped ws).copy = base.copy := by
  induction ws with
  | nil => rfl
  | cons w ws ih => cases w <;> exact ih

/-- New counters show that there were no calls. -/
theorem calls_wrapped (base : Primitive) (ws : List Wrapper) :
    (base.wrapped ws).calls = List.replicate (ws.count .counted) 0 ++ base.calls := by
  induction ws with
  | nil => rfl
  | cons w ws ih =>
    cases w with
    | counted => rw [wrapped, calls, ih, List.count_cons_self, List.replicate_succ]; rfl
    | boxed => rw [wrapped, calls, ih, List.count_cons_of_ne (by decide)]
    | borrowed => rw [wrapped, calls, ih, List.count_cons_of_ne (by decide)]

/-! ## Calls -/

/-- A call does not change the name. -/
theorem name_called (p : Primitive) : p.called.name = p.name := by
  induction p with
  | counted calls inner ih => exact ih
  | boxed inner ih => exact ih
  | borrowed inner ih => exact ih
  | _ => rfl

/-- A call does not change what the next one copies. -/
theorem copy_called (p : Primitive) : p.called.copy = p.copy := by
  induction p with
  | counted calls inner ih => exact ih
  | boxed inner ih => exact ih
  | borrowed inner ih => exact ih
  | _ => rfl

/-- Every counter counts a call. -/
theorem calls_called (p : Primitive) : p.called.calls = p.calls.map (· + 1) := by
  induction p with
  | counted calls inner ih => exact congrArg (List.cons (calls + 1)) ih
  | boxed inner ih => exact ih
  | borrowed inner ih => exact ih
  | _ => rfl

/-- **What comes of a call**: the copy, a call more on each counter, and one call within all
wrappers, with what the primitive was called with. -/
theorem call_eq (p : Primitive) (c : Call) :
    p.call c = (p.copy c.dest c.src c.size, p.called, [c]) := by
  induction p with
  | counted calls inner ih => rw [call, ih]; rfl
  | boxed inner ih => rw [call, ih]; rfl
  | borrowed inner ih => rw [call, ih]; rfl
  | _ => rfl

section

variable (p : Primitive) (n : Nat)

/-- Any number of calls does not change the name. -/
theorem name_iterate_called : (called^[n] p).name = p.name :=
  congrFun (Function.iterate_invariant (funext name_called) n) p

/-- Any number of calls does not change what the next one copies. -/
theorem copy_iterate_called : (called^[n] p).copy = p.copy :=
  congrFun (Function.iterate_invariant (funext copy_called) n) p

/-- Every counter counts any number of calls. -/
theorem calls_iterate_called : (called^[n] p).calls = p.calls.map (· + n) := by
  induction n with
  | zero => exact (List.map_id' _).symm
  | succ n ih =>
    rw [Function.iterate_succ_apply', calls_called, ih, List.map_map]
    rfl

end

end Primitive

/-! ## Trials of a device -/

/-- A device that has received further calls. -/
def Device.after (device : Device) (calls : List Call) : Device where
  primitive := Primitive.called^[calls.length] device.primitive
  received := device.received ++ calls

/-- What comes of a call of a device. -/
theorem Device.call_eq (device : Device) (c : Call) :
    Device.call c device = (device.primitive.copy c.dest c.src c.size, device.after [c]) := by
  rw [call, Primitive.call_eq]
  rfl

namespace Trial

/-- What a trial calls its primitive with. -/
def call (t : Trial) : Call := ⟨t.destination, t.source, t.source.length⟩

variable (t : Trial) (device : Device)

/-- A trial of a device copies what it does with the primitive, by one call. -/
theorem copyInto_eq : t.copyInto device = (t.outcome device.primitive, device.after [t.call]) :=
  device.call_eq t.call

/-- A trial of a device has the verdict that it has with the primitive, by one call. -/
theorem run_eq : t.run device = (t.verdict device.primitive, device.after [t.call]) := by
  rw [run]
  simp only [bind, StateT.bind, t.copyInto_eq device]
  rfl

/-- A trial of a device reports what it does with the primitive, by one call. -/
theorem runReportingTo_eq (sink : Sink) :
    t.runReportingTo sink device = (t.report device.primitive sink, device.after [t.call]) := by
  rw [runReportingTo, report]
  simp only [bind, StateT.bind, t.run_eq device]
  cases t.verdict device.primitive <;> rfl

end Trial

/-! ## Uses of a bench -/

namespace Use

/-- The fill after a use. -/
def fillAfter (fill : UInt8) : Use → UInt8
  | .refill new => new
  | _ => fill

/-- The calls that a use makes with a trial. -/
def callsOn (t : Trial) : Use → List Call
  | .refill _ => []
  | .source => []
  | .call c => [c]
  | .copyInto => [t.call]
  | .run => [t.call]
  | .report _ => [t.call]

/-- Whether a use makes a call. -/
def isCall : Use → Bool
  | .refill _ => false
  | .source => false
  | _ => true

/-- What a use gives with a trial and a primitive that are new. -/
def answerOn (t : Trial) (p : Primitive) : Use → Answer
  | .refill _ => .done
  | .source => .bytes t.source
  | .call c => .bytes (p.copy c.dest c.src c.size)
  | .copyInto => .bytes (t.outcome p)
  | .run => .verdict (t.verdict p)
  | .report sink => .reported (t.report p sink).1 (t.report p sink).2

/-- Uses, each with the fill that it finds. -/
def filled (fill : UInt8) : List Use → List (UInt8 × Use)
  | [] => []
  | use :: uses => (fill, use) :: filled (use.fillAfter fill) uses

/-- The calls that uses make with trials of a literal, in order. -/
def callsAlong (literal : Bytes) (fill : UInt8) (uses : List Use) : List Call :=
  (filled fill uses).flatMap fun (fill, use) => use.callsOn ⟨literal, fill⟩

/-- What uses give with trials of a literal and with a primitive that are new each time. -/
def answersAlong (literal : Bytes) (p : Primitive) (fill : UInt8) (uses : List Use) : List Answer :=
  (filled fill uses).map fun (fill, use) => use.answerOn ⟨literal, fill⟩ p

/-- A use makes one call, or none. -/
theorem length_callsOn (t : Trial) (use : Use) :
    (use.callsOn t).length = if use.isCall then 1 else 0 := by
  cases use <;> rfl

/-- What a use gives depends on nothing but what the primitive copies. -/
theorem answerOn_congr {p p' : Primitive} (h : p.copy = p'.copy) (t : Trial) (use : Use) :
    use.answerOn t p = use.answerOn t p' := by
  cases use <;> simp only [answerOn, Trial.report, Trial.verdict, Trial.outcome, h]

section

variable (literal : Bytes) (fill : UInt8)

/-- The calls of a use come before those of the others. -/
theorem callsAlong_cons (use : Use) (uses : List Use) :
    callsAlong literal fill (use :: uses) =
      use.callsOn ⟨literal, fill⟩ ++ callsAlong literal (use.fillAfter fill) uses := rfl

/-- There are as many calls as uses that make one. -/
theorem length_callsAlong (uses : List Use) :
    (callsAlong literal fill uses).length = uses.countP isCall := by
  induction uses generalizing fill with
  | nil => rfl
  | cons use uses ih =>
    rw [callsAlong_cons, List.length_append, ih, length_callsOn, List.countP_cons, Nat.add_comm]

/-- A call is made directly, or it is that of a trial: buffers and size are as long as the source. -/
theorem mem_callsAlong {c : Call} (uses : List Use) (h : c ∈ callsAlong literal fill uses) :
    .call c ∈ uses ∨
      c.src = literal ++ [0] ∧ c.dest.length = c.src.length ∧ c.size = c.src.length := by
  induction uses generalizing fill with
  | nil => cases h
  | cons use uses ih =>
    rw [callsAlong_cons, List.mem_append] at h
    cases h with
    | inl hfirst =>
      have htrial : c = (⟨literal, fill⟩ : Trial).call →
          c.src = literal ++ [0] ∧ c.dest.length = c.src.length ∧ c.size = c.src.length := by
        rintro rfl
        exact ⟨rfl, List.length_replicate, rfl⟩
      cases use with
      | refill new => cases hfirst
      | source => cases hfirst
      | call c' => exact .inl (List.mem_singleton.1 hfirst ▸ List.mem_cons_self)
      | _ => exact .inr (htrial (List.mem_singleton.1 hfirst))
    | inr hrest => exact (ih (use.fillAfter fill) hrest).imp_left (List.mem_cons_of_mem _)

end

end Use

namespace Device

/-- Calls that are received one after the other. -/
theorem after_append (device : Device) (calls more : List Call) :
    (device.after calls).after more = device.after (calls ++ more) := by
  rw [after, after, after, ← Function.iterate_add_apply, List.length_append, List.append_assoc,
    Nat.add_comm]

/-- Where nothing is received nothing happens. -/
theorem after_nil (device : Device) : device.after [] = device := by
  rw [after, List.append_nil]
  rfl

end Device

namespace Bench

/-- The device is used as it would be alone. -/
theorem run_map_withDevice {α : Type} {action : Trial → StateM Device α} {t : Trial}
    {device device' : Device} {a : α} (h : action t device = (a, device')) (f : α → Answer) :
    (f <$> withDevice action : StateM Bench Answer) ⟨t, device⟩ = (f a, ⟨t, device'⟩) := by
  simp only [Functor.map, StateT.map, withDevice, h]
  rfl

/-- **What comes of a use of a bench.** -/
theorem perform_eq (use : Use) (t : Trial) (device : Device) :
    (perform use : StateM Bench Answer) ⟨t, device⟩ =
      (use.answerOn t device.primitive,
        ⟨{ t with fill := use.fillAfter t.fill }, device.after (use.callsOn t)⟩) := by
  cases use with
  | refill fill => rw [Use.callsOn, Device.after_nil]; rfl
  | source => rw [Use.callsOn, Device.after_nil]; rfl
  | call c => exact run_map_withDevice (device.call_eq c) _
  | copyInto => exact run_map_withDevice (t.copyInto_eq device) _
  | run => exact run_map_withDevice (t.run_eq device) _
  | report sink => exact run_map_withDevice (t.runReportingTo_eq device sink) _

/-- Uses of a bench, one after the other: what each of them gives. -/
def performAll : List Use → StateM Bench (List Answer)
  | [] => pure []
  | use :: uses => do
    let answer ← perform use
    let answers ← performAll uses
    pure (answer :: answers)

/-- **What comes of a sequence of uses of a bench.** Each gives what it does with a new trial, of the
same literal and the fill that it finds, and with any primitive that copies the same; and the device
receives the calls of each.

**Proof sketch.** Induction on the uses, with the device general: what it copies is not changed by
the calls that it receives. -/
theorem performAll_eq {base : Primitive} (literal : Bytes) (uses : List Use) (fill : UInt8)
    (device : Device) (h : device.primitive.copy = base.copy) :
    ∃ last, (performAll uses : StateM Bench (List Answer)) ⟨⟨literal, fill⟩, device⟩ =
      (Use.answersAlong literal base fill uses,
        ⟨⟨literal, last⟩, device.after (Use.callsAlong literal fill uses)⟩) := by
  induction uses generalizing fill device with
  | nil => exact ⟨fill, by rw [Use.callsAlong, Use.filled, List.flatMap_nil, Device.after_nil]; rfl⟩
  | cons use uses ih =>
    have hafter : (device.after (use.callsOn ⟨literal, fill⟩)).primitive.copy = base.copy :=
      (Primitive.copy_iterate_called ..).trans h
    obtain ⟨last, hrest⟩ := ih (use.fillAfter fill) _ hafter
    refine ⟨last, ?_⟩
    rw [performAll]
    simp only [bind, StateT.bind, perform_eq, hrest]
    rw [Use.answerOn_congr h, Device.after_append]
    rfl

/-- **Wrappers leave nothing but their counts, and trials nothing but one call.** Take any primitive
in any new wrappers, and use it on a bench in any sequence: fills are changed, and the primitive is
called directly and in trials, which fail or pass. The wrapped primitive has the name of the bare
one and copies what that does. In the end each new counter shows the number of calls, and counters
within the bare primitive have grown by it. The bare primitive has received just these calls, and
what a trial calls it with is the source, a destination as long as that, and this length. Every use
has given what it does with the bare primitive and a new trial of the same literal and the present
fill, and the source is what it was.

**Proof sketch.** What comes of a sequence of uses tells which calls there were. A use makes one of
them or none, so the counters show how many uses make one. -/
theorem performAll_wrapped (base : Primitive) (ws : List Wrapper) (literal : Bytes) (fill : UInt8)
    (uses : List Use) :
    let p := base.wrapped ws
    let run := (performAll uses : StateM Bench (List Answer)) ⟨⟨literal, fill⟩, { primitive := p }⟩
    let device := run.2.device
    let count := uses.countP Use.isCall
    p.name = base.name ∧ (∀ dest src size, p.copy dest src size = base.copy dest src size) ∧
    device.primitive.name = base.name ∧
    device.primitive.calls =
      List.replicate (ws.count .counted) count ++ base.calls.map (· + count) ∧
    device.received.length = count ∧
    device.received = Use.callsAlong literal fill uses ∧
    (∀ c ∈ device.received, Use.call c ∈ uses ∨
      c.src = literal ++ [0] ∧ c.dest.length = c.src.length ∧ c.size = c.src.length) ∧
    run.1 = Use.answersAlong literal base fill uses ∧
    run.2.trial.source = literal ++ [0] := by
  intro p run device count
  have hcopy : p.copy = base.copy := base.copy_wrapped ws
  obtain ⟨last, hrun⟩ := performAll_eq literal uses fill { primitive := p } hcopy
  have hrun : run = _ := hrun
  have hdevice : device =
      ({ primitive := p } : Device).after (Use.callsAlong literal fill uses) := by
    rw [show device = run.2.device from rfl, hrun]
  have hlength : (Use.callsAlong literal fill uses).length = count :=
    Use.length_callsAlong literal fill uses
  have hprimitive : device.primitive = Primitive.called^[count] p := by
    rw [hdevice, Device.after, hlength]
  have hreceived : device.received = Use.callsAlong literal fill uses := by
    rw [hdevice]
    rfl
  refine ⟨base.name_wrapped ws, fun dest src size => by rw [hcopy], ?_, ?_, ?_, hreceived,
    fun c hc => ?_, ?_, ?_⟩
  · rw [hprimitive, Primitive.name_iterate_called, base.name_wrapped ws]
  · rw [hprimitive, Primitive.calls_iterate_called, base.calls_wrapped ws, List.map_append,
      List.map_replicate, Nat.zero_add]
  · rw [hreceived, hlength]
  · rw [hreceived] at hc
    exact Use.mem_callsAlong literal fill uses hc
  · rw [hrun]
  · rw [hrun]
    rfl

end Bench

end CopyTrial
