import CopyTrial.Timestamp
import CopyTrial.Proofs.Calendar.Words
import CopyTrial.Proofs.Numeral

/-!
# Reading timestamps

A timestamp is read field by field: the date gives the days before it, by the lengths of the years
and the months, and the time of the day the seconds since midnight. A timestamp that was written for
a moment is read as that moment.

## Main definitions

* `Timestamp.field?`, `Timestamp.year?` — the digits of a field, and what ends it.
* `Timestamp.read?` — the seconds and milliseconds of a timestamp.

## Main results

* `timestamp_gregorian` — dates are those of the calendar, within 64 bits, and timestamps
  are read back.
-/

set_option autoImplicit false

namespace CopyTrial

namespace Timestamp

/-! ## Fields -/

/-- The value of exactly so many digits that are followed by a separator, and what stands after
it. -/
def field? (width : Nat) (separator : Char) (cs : List Char) : Option (Nat × List Char) :=
  let digits := cs.take width
  if digits.length = width ∧ digits.all Char.isDigit ∧ (cs.drop width).head? = some separator then
    some (Nat.ofDigitChars 10 digits 0, cs.drop (width + 1))
  else none

/-- The value of a year, which has four digits or more, and what stands after it. -/
def year? (cs : List Char) : Option (Nat × List Char) :=
  let digits := cs.takeWhile Char.isDigit
  if 4 ≤ digits.length then field? digits.length '-' cs else none

/-- The seconds since the start of 1970 of a date of the calendar and a time of the day. -/
def seconds? (date : Date) (hour minute second : Nat) : Option Nat :=
  if 1970 ≤ date.year ∧ date.Valid ∧ hour < 24 ∧ minute < 60 ∧ second < 60 then
    some (date.dayNumber * 86400 + hour * 3600 + minute * 60 + second)
  else none

/-- The seconds since the start of 1970 and the milliseconds of a timestamp, with nothing after
it. -/
def read? (text : String) : Option (Nat × Nat) := do
  let (year, cs) ← year? text.toList
  let (month, cs) ← field? 2 '-' cs
  let (day, cs) ← field? 2 'T' cs
  let (hour, cs) ← field? 2 ':' cs
  let (minute, cs) ← field? 2 ':' cs
  let (second, cs) ← field? 2 '.' cs
  let (millis, cs) ← field? 3 'Z' cs
  let seconds ← seconds? ⟨year, month, day⟩ hour minute second
  if cs.isEmpty then some (seconds, millis) else none

/-- A field is read if its numeral is as wide as it. -/
theorem field?_eq {width n : Nat} (separator : Char) (rest : List Char) {padding : Nat}
    (h : (Numeral.padded padding n).toList.length = width) :
    field? width separator ((Numeral.padded padding n).toList ++ separator :: rest) =
      some (n, rest) := by
  subst h
  have hdigits : (Numeral.padded padding n).toList.all Char.isDigit = true :=
    List.all_eq_true.2 fun _ hc => Numeral.isDigit_of_mem_padded hc
  simp only [field?, List.take_left', List.drop_left', List.head?_cons, hdigits, and_self, if_true,
    Numeral.ofDigitChars_padded, List.drop_append, List.drop_eq_nil_of_le (Nat.le_succ _),
    Nat.add_sub_cancel_left, List.nil_append, List.drop_succ_cons, List.drop_zero]

/-- A year is read, whatever number of digits it has. -/
theorem year?_padded (n : Nat) (rest : List Char) :
    year? ((Numeral.padded 4 n).toList ++ '-' :: rest) = some (n, rest) := by
  have htake : ((Numeral.padded 4 n).toList ++ '-' :: rest).takeWhile Char.isDigit =
      (Numeral.padded 4 n).toList := by
    rw [List.takeWhile_append_of_pos fun _ hc => Numeral.isDigit_of_mem_padded hc,
      List.takeWhile_cons_of_neg (by decide), List.append_nil]
  have hwide : 4 ≤ (Numeral.padded 4 n).toList.length := by
    rw [Numeral.length_padded]
    exact Nat.le_max_left _ _
  simp only [year?, htake, if_pos hwide]
  exact field?_eq '-' rest rfl

/-- A field of some digits is read if its number has no more digits. -/
theorem field?_padded {width n : Nat} (hwidth : 0 < width) (h : n < Nat.pow 10 width)
    (separator : Char) (rest : List Char) :
    field? width separator ((Numeral.padded width n).toList ++ separator :: rest) =
      some (n, rest) :=
  field?_eq separator rest (Numeral.length_padded_of_le (Numeral.length_toDigits_le hwidth h))

/-! ## Timestamps -/

/-- The text of a date and a time of the day, field by field. -/
def fields (date : Date) (hour minute second millis : Nat) : String :=
  Numeral.padded 4 date.year ++ "-" ++ Numeral.padded 2 date.month ++ "-" ++
    Numeral.padded 2 date.day ++ "T" ++ Numeral.padded 2 hour ++ ":" ++
    Numeral.padded 2 minute ++ ":" ++ Numeral.padded 2 second ++ "." ++
    Numeral.padded 3 millis ++ "Z"

/-- The text of a moment has the fields of its date and its time of the day. -/
theorem timestamp_eq_fields (seconds millis : Nat) :
    timestamp seconds millis =
      fields (Date.ofDays (seconds / 86400)) (seconds % 86400 / 3600)
        (seconds % 86400 % 3600 / 60) (seconds % 86400 % 60) millis :=
  rfl

/-- The characters of a date and a time of the day. -/
theorem toList_fields (date : Date) (hour minute second millis : Nat) :
    (fields date hour minute second millis).toList =
      (Numeral.padded 4 date.year).toList ++ '-' :: ((Numeral.padded 2 date.month).toList ++ '-' ::
      ((Numeral.padded 2 date.day).toList ++ 'T' :: ((Numeral.padded 2 hour).toList ++ ':' ::
      ((Numeral.padded 2 minute).toList ++ ':' :: ((Numeral.padded 2 second).toList ++ '.' ::
      ((Numeral.padded 3 millis).toList ++ ['Z'])))))) := by
  simp only [fields, String.toList_append, String.reduceToList, List.append_assoc,
    List.cons_append, List.nil_append]

/-- A date and a time of the day are read field by field. -/
theorem read?_fields {date : Date} {hour minute second millis : Nat} (hmonth : date.month < 100)
    (hday : date.day < 100) (hhour : hour < 100) (hminute : minute < 100) (hsecond : second < 100)
    (hmillis : millis < 1000) :
    read? (fields date hour minute second millis) =
      (seconds? date hour minute second).map fun seconds => (seconds, millis) := by
  have htwo {n : Nat} (h : n < 100) (separator : Char) (rest : List Char) :
      field? 2 separator ((Numeral.padded 2 n).toList ++ separator :: rest) = some (n, rest) :=
    field?_padded (Nat.succ_pos 1) h separator rest
  simp only [read?, toList_fields, year?_padded, htwo hmonth, htwo hday, htwo hhour, htwo hminute,
    htwo hsecond, field?_padded (Nat.succ_pos 2) hmillis, Option.bind_eq_bind, Option.bind_some,
    List.isEmpty_nil, if_true]
  exact Option.map_eq_bind.symm

/-- The seconds of the date and the time of the day of a moment are those of the moment. -/
theorem seconds?_eq (seconds : Nat) :
    seconds? (Date.ofDays (seconds / 86400)) (seconds % 86400 / 3600)
      (seconds % 86400 % 3600 / 60) (seconds % 86400 % 60) = some seconds := by
  have hvalid := Date.valid_ofDays (seconds / 86400)
  have hyear := Date.year_ofDays_ge (seconds / 86400)
  rw [seconds?, if_pos ⟨hyear, hvalid, by omega, by omega, by omega⟩, Date.dayNumber_ofDays]
  exact congrArg some (by omega)

/-- A timestamp is read as the moment it was written for. -/
theorem read?_timestamp (seconds : Nat) {millis : Nat} (h : millis < 1000) :
    read? (timestamp seconds millis) = some (seconds, millis) := by
  obtain ⟨-, hmonth, -, hday⟩ := Date.valid_ofDays (seconds / 86400)
  have hlength := Date.monthLength_le (Date.ofDays (seconds / 86400)).year
    (Date.ofDays (seconds / 86400)).month
  rw [timestamp_eq_fields, read?_fields (by omega) (by omega) (by omega) (by omega) (by omega) h,
    seconds?_eq, Option.map_some]

end Timestamp

/-- **Timestamps are moments of the Gregorian calendar.** Of every number of seconds with 64 bits,
the date is one of the calendar and no step on the way to it leaves 64 bits; the dates of days start
with 1 January 1970 and go on as the calendar does; and the timestamp is read back as the seconds
and the milliseconds. -/
theorem timestamp_gregorian {seconds millis : Nat} (h : seconds < UInt64.size)
    (hmillis : millis < 1000) :
    (Date.ofDays (seconds / 86400)).Valid ∧
    Date.ofDays 0 = ⟨1970, 1, 1⟩ ∧
    (∀ days, Date.ofDays (days + 1) = (Date.ofDays days).next) ∧
    Date.ofDaysInWords? (seconds / 86400) = some (Date.ofDays (seconds / 86400)) ∧
    Timestamp.read? (timestamp seconds millis) = some (seconds, millis) := by
  have hdays : seconds / 86400 ≤ 18446744073709551616 / 86400 :=
    Nat.div_le_div_right (Nat.le_of_lt h)
  exact ⟨Date.valid_ofDays _, rfl, Date.ofDays_succ, Date.ofDaysInWords?_eq hdays,
    Timestamp.read?_timestamp seconds hmillis⟩

/-- On the leap day of a year that ends a century. -/
theorem timestamp_gregorian_leapDay :
    timestamp 951827696 7 = "2000-02-29T12:34:56.007Z" ∧
    Timestamp.read? (timestamp 951827696 7) = some (951827696, 7) :=
  ⟨by decide +kernel,
    (timestamp_gregorian (by decide : 951827696 < UInt64.size) (by decide : 7 < 1000)).2.2.2.2⟩

end CopyTrial
