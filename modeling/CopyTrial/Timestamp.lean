import CopyTrial.Calendar
import CopyTrial.Numeral

/-!
# Timestamps

## Main definitions

* `Instant` — what a wall clock shows.
* `timestamp` — a moment of universal time as text, to the millisecond.
-/

set_option autoImplicit false

namespace CopyTrial

/-- The text of a moment, given in seconds since the start of 1970 and milliseconds. -/
def timestamp (seconds millis : Nat) : String :=
  let date := Date.ofDays (seconds / 86400)
  let rest := seconds % 86400
  Numeral.padded 4 date.year ++ "-" ++ Numeral.padded 2 date.month ++ "-" ++
    Numeral.padded 2 date.day ++ "T" ++ Numeral.padded 2 (rest / 3600) ++ ":" ++
    Numeral.padded 2 (rest % 3600 / 60) ++ ":" ++ Numeral.padded 2 (rest % 60) ++ "." ++
    Numeral.padded 3 millis ++ "Z"

/-- What a wall clock shows: seconds since the start of 1970, and nanoseconds. -/
structure Instant where
  seconds : Int
  nanos : Nat
  deriving DecidableEq, Repr

/-- The timestamp of an instant; one before 1970 counts as the start of 1970. -/
def Instant.timestamp (t : Instant) : String :=
  if t.seconds < 0 then CopyTrial.timestamp 0 0
  else CopyTrial.timestamp t.seconds.toNat (t.nanos / 1000000)

end CopyTrial
