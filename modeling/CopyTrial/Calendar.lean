/-!
# The Gregorian calendar

Days are counted from 1 January 1970. A cycle of 400 years has 146097 days; counting years from
March puts the leap day at the end of a year, so that the months before it are regular.

## Main definitions

* `Date`, `Date.ofDays` — a date, and the date of a day.
* `Date.isLeap`, `Date.monthLength`, `Date.next` — the rules of the calendar.
-/

set_option autoImplicit false

namespace CopyTrial

/-- A date of the proleptic Gregorian calendar. -/
structure Date where
  year : Nat
  month : Nat
  day : Nat
  deriving DecidableEq, Repr

namespace Date

/-- Whether February has 29 days. -/
def isLeap (year : Nat) : Bool := year % 4 == 0 && (year % 100 != 0 || year % 400 == 0)

/-- The number of days of a month. -/
def monthLength (year month : Nat) : Nat :=
  if month = 2 then if isLeap year then 29 else 28
  else if month = 4 || month = 6 || month = 9 || month = 11 then 30
  else 31

/-- The date after a date. -/
def next (d : Date) : Date :=
  if d.day < monthLength d.year d.month then { d with day := d.day + 1 }
  else if d.month < 12 then ⟨d.year, d.month + 1, 1⟩
  else ⟨d.year + 1, 1, 1⟩

/-- The year of a cycle, counted from March, in which a day of the cycle lies. -/
def yearOfCycle (day : Nat) : Nat :=
  (day - day / 1460 + day / 36524 - day / 146096) / 365

/-- The day of a year that starts in March. -/
def dayOfYear (day : Nat) : Nat :=
  let year := yearOfCycle day
  day - (365 * year + year / 4 - year / 100)

/-- The date of a day, counted from 1 January 1970. -/
def ofDays (days : Nat) : Date :=
  let shifted := days + 719468
  let cycle := shifted / 146097
  let day := shifted % 146097
  let index := dayOfYear day
  let month := (5 * index + 2) / 153
  let civilMonth := if month < 10 then month + 3 else month - 9
  { year := yearOfCycle day + cycle * 400 + if civilMonth ≤ 2 then 1 else 0
    month := civilMonth
    day := index - (153 * month + 2) / 5 + 1 }

end Date

end CopyTrial
