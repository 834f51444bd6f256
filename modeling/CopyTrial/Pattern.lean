import CopyTrial.Bytes

/-!
# A pattern that betrays wrong copies

A sequence of bytes without zeros whose period, 251, is prime to every size in use: a copy that
ends early or starts at a wrong place shows at once.

## Main definitions

* `pattern` — the first bytes of the sequence.
* `measuredSizes` — the sizes for which copies are measured.
-/

set_option autoImplicit false

namespace CopyTrial

/-- The first `size` bytes of the sequence 1, 2, …, 251, 1, 2, … -/
def pattern (size : Nat) : Bytes :=
  (List.range size).map fun i => UInt8.ofNat (i % 251) + 1

/-- The sizes for which copies are measured. -/
def measuredSizes : List Nat := [12, 64, 256, 1024, 4096, 65536]

end CopyTrial
