import CopyTrial.Proofs.Calendar.Dates

/-!
# Dates within 64 bits

The date of a day is computed with numbers of 64 bits, where a sum or a product may be too large and
a difference below zero. None is for the days that a number of seconds with 64 bits comes to.

## Main definitions

* `Word.add?`, `Word.mul?`, `Word.sub?` — arithmetic that has no result outside 64 bits.
* `Date.ofDaysInWords?` — the date of a day by this arithmetic, step for step.

## Main results

* `Date.ofDaysInWords?_eq` — no step on the way to a date leaves 64 bits.
-/

set_option autoImplicit false

namespace CopyTrial

namespace Word

/-- A sum, if it has 64 bits. -/
def add? (a b : Nat) : Option Nat := if a + b < UInt64.size then some (a + b) else none

/-- A product, if it has 64 bits. -/
def mul? (a b : Nat) : Option Nat := if a * b < UInt64.size then some (a * b) else none

/-- A difference, if it is not below zero. -/
def sub? (a b : Nat) : Option Nat := if b ≤ a then some (a - b) else none

/-- There is a sum below the bound. -/
theorem add?_eq {a b : Nat} (h : a + b < 18446744073709551616) : add? a b = some (a + b) :=
  if_pos h

/-- There is a product below the bound. -/
theorem mul?_eq {a b : Nat} (h : a * b < 18446744073709551616) : mul? a b = some (a * b) :=
  if_pos h

/-- There is a difference that is not below zero. -/
theorem sub?_eq {a b : Nat} (h : b ≤ a) : sub? a b = some (a - b) := if_pos h

end Word

namespace Date

/-- The year of a cycle, as `yearOfCycle` computes it, if no step leaves 64 bits. -/
def yearOfCycleInWords? (day : Nat) : Option Nat := do
  let passed ← Word.sub? day (day / 1460)
  let passed ← Word.add? passed (day / 36524)
  let passed ← Word.sub? passed (day / 146096)
  some (passed / 365)

/-- The day of a year, as `dayOfYear` computes it, if no step leaves 64 bits. -/
def dayOfYearInWords? (day year : Nat) : Option Nat := do
  let passed ← Word.mul? 365 year
  let passed ← Word.add? passed (year / 4)
  let passed ← Word.sub? passed (year / 100)
  Word.sub? day passed

/-- The number of a month, as `ofDays` computes it, if no step leaves 64 bits. -/
def civilMonthInWords? (month : Nat) : Option Nat :=
  if month < 10 then Word.add? month 3 else Word.sub? month 9

/-- The month and the day of a month, as `ofDays` computes them, if no step leaves 64 bits. -/
def monthAndDayInWords? (index : Nat) : Option (Nat × Nat) := do
  let scaled ← Word.mul? 5 index
  let scaled ← Word.add? scaled 2
  let month := scaled / 153
  let scaled ← Word.mul? 153 month
  let scaled ← Word.add? scaled 2
  let day ← Word.sub? index (scaled / 5)
  let day ← Word.add? day 1
  let month ← civilMonthInWords? month
  some (month, day)

/-- The date of a day, as `ofDays` computes it, if no step leaves 64 bits. -/
def ofDaysInWords? (days : Nat) : Option Date := do
  let shifted ← Word.add? days 719468
  let yearOfCycle ← yearOfCycleInWords? (shifted % 146097)
  let index ← dayOfYearInWords? (shifted % 146097) yearOfCycle
  let (month, day) ← monthAndDayInWords? index
  let cycles ← Word.mul? (shifted / 146097) 400
  let year ← Word.add? yearOfCycle cycles
  let year ← Word.add? year (if month ≤ 2 then 1 else 0)
  some ⟨year, month, day⟩

/-- No step on the way to the year of a cycle leaves 64 bits. -/
theorem yearOfCycleInWords?_eq {day : Nat} (h : day < 146097) :
    yearOfCycleInWords? day = some (yearOfCycle day) := by
  have hquads : day / 1460 ≤ day := Nat.div_le_self day 1460
  have hcycles : day / 146096 ≤ day / 36524 := Nat.div_le_div_left (by decide) (by decide)
  simp (disch := omega) only [yearOfCycleInWords?, Word.sub?_eq, Word.add?_eq, Option.bind_eq_bind,
    Option.bind_some, yearOfCycle]

/-- No step on the way to the day of a year leaves 64 bits. -/
theorem dayOfYearInWords?_eq {year : Nat} (h : year < 400) (index : Nat) :
    dayOfYearInWords? (yearStart year + index) year = some index := by
  have hcycle : year / 400 = 0 := Nat.div_eq_of_lt h
  have hcenturies : year / 100 ≤ year := Nat.div_le_self year 100
  have hquads : year / 4 ≤ year := Nat.div_le_self year 4
  simp (disch := omega) only [dayOfYearInWords?, yearStart, hcycle, Word.sub?_eq, Word.add?_eq,
    Word.mul?_eq, Option.bind_eq_bind, Option.bind_some, Nat.add_zero, Nat.add_sub_cancel_left]

/-- No step on the way to the month and the day of a month leaves 64 bits. -/
theorem monthAndDayInWords?_eq {index : Nat} (h : index < 366) :
    monthAndDayInWords? index =
      some (civilMonth ((5 * index + 2) / 153),
        index - monthStart ((5 * index + 2) / 153) + 1) := by
  have hmonth : (5 * index + 2) / 153 < 12 := by omega
  have hstart : (153 * ((5 * index + 2) / 153) + 2) / 5 ≤ index := by omega
  have hcivil : ∀ month < 12, civilMonthInWords? month = some (civilMonth month) := by decide
  simp only [monthAndDayInWords?, Option.bind_eq_bind]
  rw [Word.mul?_eq (by omega), Option.bind_some, Word.add?_eq (by omega), Option.bind_some,
    Word.mul?_eq (by omega), Option.bind_some, Word.add?_eq (by omega), Option.bind_some,
    Word.sub?_eq hstart, Option.bind_some, Word.add?_eq (by omega), Option.bind_some,
    hcivil _ hmonth, Option.bind_some, monthStart]

/-- **No step on the way to a date leaves 64 bits**, if the days come from a number of seconds with
64 bits.

**Proof sketch.** What is taken away is never more than there is: the days before a year or a month
are no more than those before one of its days. The sums and products are bounded by the days of a
cycle, except that the year grows with the cycles. -/
theorem ofDaysInWords?_eq {days : Nat} (h : days ≤ 18446744073709551616 / 86400) :
    ofDaysInWords? days = some (ofDays days) := by
  obtain ⟨year, index, hplace, hindex⟩ := exists_marchYear ((days + 719468) % 146097)
  have hlimit : (days + 719468) % 146097 < 146097 := Nat.mod_lt _ (by decide)
  have hyear : year < 400 := by
    by_contra hover
    have hcycle : 146097 ≤ yearStart year := yearStart_mono (Nat.le_of_not_lt hover)
    omega
  obtain ⟨-, hyearOfCycle, hdayOfYear⟩ := place_in_cycle hyear hindex
  have hlong : index < 366 := Nat.lt_of_lt_of_le hindex (yearLength_bounds (year + 1)).2
  have hone : ∀ month, (if civilMonth month ≤ 2 then 1 else 0) ≤ 1 := by
    intro month
    split <;> decide
  have hlast := hone ((5 * index + 2) / 153)
  simp only [ofDaysInWords?, Option.bind_eq_bind]
  rw [Word.add?_eq (by omega), Option.bind_some, ← hplace, yearOfCycleInWords?_eq (by omega),
    hyearOfCycle, Option.bind_some, dayOfYearInWords?_eq hyear, Option.bind_some,
    monthAndDayInWords?_eq hlong, Option.bind_some]
  dsimp only
  rw [Word.mul?_eq (by omega), Option.bind_some, Word.add?_eq (by omega), Option.bind_some,
    Word.add?_eq (by omega), Option.bind_some]
  simp only [ofDays, ← hplace, hyearOfCycle, hdayOfYear]
  rfl

end Date

end CopyTrial
