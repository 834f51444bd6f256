import CopyTrial.Copy

/-!
# Copy primitives

A primitive is a named way to copy that can be tried. The in-tree ones copy everything, copy
nothing, or copy only so many bytes; others come from outside as routines. A primitive may be
wrapped, which changes neither its name nor what it does; one of the wrappers counts the calls.

## Main definitions

* `Routine` — a way to copy that keeps the length of the destination.
* `Primitive` — a primitive with its wrappers.
* `Primitive.copy`, `Primitive.called` — what a call leaves in the destination, and the primitive
  after the call.

## Main results

* `Primitive.length_copy` — no primitive changes the length of its destination.
-/

set_option autoImplicit false

namespace CopyTrial

/-- A way to copy: what is in the destination after copying `size` bytes of the source. -/
structure Routine where
  copy : (dest src : Bytes) → (size : Nat) → Bytes
  length_copy : ∀ dest src size, (copy dest src size).length = dest.length

namespace Routine

/-- Bytes written over the start of a destination; what does not fit is lost. -/
def overwrite (dest written : Bytes) : Bytes :=
  written.take dest.length ++ dest.drop written.length

/-- Overwriting keeps the length of the destination. -/
@[simp] theorem length_overwrite (dest written : Bytes) :
    (overwrite dest written).length = dest.length := by
  simp only [overwrite, List.length_append, List.length_take, List.length_drop]
  omega

/-- The routine that writes the bytes of a function over the start of the destination. -/
def ofFn (f : (dest src : Bytes) → (size : Nat) → Bytes) : Routine where
  copy dest src size := overwrite dest (f dest src size)
  length_copy _ _ _ := length_overwrite _ _

/-- The external routine, called with two pointers that are not null. -/
def external : Routine where
  copy dest src size := (Copy.raw (some dest) (some src) size).getD dest
  length_copy _ _ _ := Copy.length_bytes _ _ _

end Routine

/-- A copy primitive. -/
inductive Primitive where
  /-- Copies byte by byte. -/
  | reference
  /-- Copies word by word. -/
  | wordwise
  /-- Leaves the destination alone. -/
  | noop
  /-- Copies at most so many bytes. -/
  | truncate (limit : UInt64)
  /-- A routine that is called as it is. -/
  | callback (name : String) (routine : Routine)
  /-- A routine behind a foreign boundary, which is told only as many bytes as both buffers
  hold. -/
  | foreign (name : String) (routine : Routine)
  /-- Counts the calls of another primitive. -/
  | counted (calls : Nat) (inner : Primitive)
  /-- Owns another primitive. -/
  | boxed (inner : Primitive)
  /-- Refers to another primitive. -/
  | borrowed (inner : Primitive)

namespace Primitive

/-- The name of a primitive. -/
def name : Primitive → String
  | .reference => "reference"
  | .wordwise => "wordwise"
  | .noop => "noop"
  | .truncate limit => "truncate:" ++ Nat.repr limit.toNat
  | .callback name _ => name
  | .foreign name _ => name
  | .counted _ inner => inner.name
  | .boxed inner => inner.name
  | .borrowed inner => inner.name

/-- What is in the destination after a call. -/
def copy : Primitive → (dest src : Bytes) → (size : Nat) → Bytes
  | .reference, dest, src, size => Copy.bytewise dest src size
  | .wordwise, dest, src, size => Copy.wordwise dest src size
  | .noop, dest, _, _ => dest
  | .truncate limit, dest, src, size => Copy.bytewise dest src (min size limit.toNat)
  | .callback _ routine, dest, src, size => routine.copy dest src size
  | .foreign _ routine, dest, src, size => routine.copy dest src (Copy.window dest src size)
  | .counted _ inner, dest, src, size => inner.copy dest src size
  | .boxed inner, dest, src, size => inner.copy dest src size
  | .borrowed inner, dest, src, size => inner.copy dest src size

/-- The primitive after a call: every counter in it has counted the call. -/
def called : Primitive → Primitive
  | .counted calls inner => .counted (calls + 1) inner.called
  | .boxed inner => .boxed inner.called
  | .borrowed inner => .borrowed inner.called
  | p => p

/-- The counts of the counters, the outermost one first. -/
def calls : Primitive → List Nat
  | .counted calls inner => calls :: inner.calls
  | .boxed inner => inner.calls
  | .borrowed inner => inner.calls
  | _ => []

/-- No primitive changes the length of its destination. -/
@[simp] theorem length_copy (p : Primitive) (dest src : Bytes) (size : Nat) :
    (p.copy dest src size).length = dest.length := by
  induction p with
  | reference => exact Copy.length_bytewise ..
  | wordwise => exact Copy.length_wordwise ..
  | noop => rfl
  | truncate limit => exact Copy.length_bytewise ..
  | callback name routine => exact routine.length_copy ..
  | foreign name routine => exact routine.length_copy ..
  | counted calls inner ih => exact ih
  | boxed inner ih => exact ih
  | borrowed inner ih => exact ih

end Primitive

end CopyTrial
