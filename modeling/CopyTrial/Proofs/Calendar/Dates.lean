import Mathlib.Order.Monotone.Basic
import CopyTrial.Calendar

/-!
# The dates of days

The date of a day is found by divisions that take a year to start in March. They are right because
the years that start in March have the lengths of the calendar, and so have the months: the date of
the next day is the next date. So the dates are those of the calendar, and counting the days up to a
date by the lengths of years and months gives the day back.

## Main definitions

* `Date.Valid` — there is such a date.
* `Date.yearLength`, `Date.dayNumber` — the number of days of a year, and of the days before a date.
* `Date.yearStart`, `Date.monthStart`, `Date.ofMarchYear` — years and months counted from March.

## Main results

* `Date.ofDays_eq` — the date of a day, by its place in a year that starts in March.
* `Date.ofDays_succ` — the date of the next day is the next date.
* `Date.valid_ofDays` — the date of a day is one of the calendar.
* `Date.dayNumber_ofDays` — the days before the date of a day.
-/

set_option autoImplicit false

namespace CopyTrial

namespace Date

/-! ## The calendar -/

/-- There is such a date. -/
structure Valid (d : Date) : Prop where
  month_pos : 1 ≤ d.month
  month_le : d.month ≤ 12
  day_pos : 1 ≤ d.day
  day_le : d.day ≤ monthLength d.year d.month

instance (d : Date) : Decidable d.Valid :=
  decidable_of_iff (1 ≤ d.month ∧ d.month ≤ 12 ∧ 1 ≤ d.day ∧ d.day ≤ monthLength d.year d.month)
    ⟨fun ⟨h1, h2, h3, h4⟩ => ⟨h1, h2, h3, h4⟩, fun ⟨h1, h2, h3, h4⟩ => ⟨h1, h2, h3, h4⟩⟩

/-- The number of days of a year. -/
def yearLength (year : Nat) : Nat := if isLeap year then 366 else 365

/-- The number of days of so many years from 1970 on. -/
def daysOfYears : Nat → Nat
  | 0 => 0
  | count + 1 => daysOfYears count + yearLength (1970 + count)

/-- The number of days of the first months of a year. -/
def daysOfMonths (year : Nat) : Nat → Nat
  | 0 => 0
  | count + 1 => daysOfMonths year count + monthLength year (count + 1)

/-- The number of days from 1 January 1970 on before a date. -/
def dayNumber (d : Date) : Nat :=
  daysOfYears (d.year - 1970) + daysOfMonths d.year (d.month - 1) + (d.day - 1)

/-- Every fourth year is leap, except that of the hundredth ones only every fourth is. -/
theorem isLeap_iff (year : Nat) :
    isLeap year = true ↔ year % 4 = 0 ∧ (year % 100 ≠ 0 ∨ year % 400 = 0) := by
  simp [isLeap]

/-- A month has 31 days at most. -/
theorem monthLength_le (year month : Nat) : monthLength year month ≤ 31 := by
  unfold monthLength
  split
  · split <;> decide
  · split <;> decide

/-- The months of a year have the days of the year. -/
theorem daysOfMonths_twelve (year : Nat) : daysOfMonths year 12 = yearLength year := by
  cases h : isLeap year <;> simp [daysOfMonths, monthLength, yearLength, h]

/-- The date after one of the calendar has one more day before it. -/
theorem dayNumber_next {d : Date} (h : d.Valid) (hyear : 1970 ≤ d.year) :
    d.next.dayNumber = d.dayNumber + 1 := by
  obtain ⟨year, month, day⟩ := d
  obtain ⟨hmonth, hmonth', hday, hday'⟩ := h
  dsimp only at hmonth hmonth' hday hday' hyear
  obtain ⟨month, rfl⟩ : ∃ m, month = m + 1 := ⟨month - 1, by omega⟩
  obtain ⟨year, rfl⟩ : ∃ y, year = 1970 + y := ⟨year - 1970, by omega⟩
  by_cases hlast : day < monthLength (1970 + year) (month + 1)
  · simp only [next, if_pos hlast, dayNumber]
    omega
  · have hmonths : daysOfMonths (1970 + year) (month + 1) =
        daysOfMonths (1970 + year) month + day := by
      rw [daysOfMonths]
      omega
    by_cases hdecember : month + 1 < 12
    · simp only [next, if_neg hlast, if_pos hdecember, dayNumber, Nat.add_sub_cancel]
      omega
    · obtain rfl : month = 11 := by omega
      have hyears : daysOfYears (1970 + year + 1 - 1970) =
          daysOfYears (1970 + year - 1970) + yearLength (1970 + year) := by
        rw [show 1970 + year + 1 - 1970 = year + 1 by omega, Nat.add_sub_cancel_left, daysOfYears]
      rw [daysOfMonths_twelve] at hmonths
      simp only [next, if_neg hlast, if_neg hdecember, dayNumber, hyears, hmonths, Nat.sub_self,
        daysOfMonths, Nat.add_sub_cancel]
      omega

/-! ## Years and months from March on -/

/-- The number of days of so many years that start in March, the first of which ends with the
February of year 1. -/
def yearStart (year : Nat) : Nat := 365 * year + year / 4 - year / 100 + year / 400

/-- The number of days of the first months of a year that starts in March. -/
def monthStart (month : Nat) : Nat := (153 * month + 2) / 5

/-- The number of a month, counted from March, in a year that starts in January. -/
def civilMonth (month : Nat) : Nat := if month < 10 then month + 3 else month - 9

/-- The date of a day of a year that starts in March. -/
def ofMarchYear (year index : Nat) : Date :=
  let month := (5 * index + 2) / 153
  { year := year + if civilMonth month ≤ 2 then 1 else 0
    month := civilMonth month
    day := index - monthStart month + 1 }

/-- A year that starts in March has the February, and so the length, of the next year. -/
theorem yearStart_succ (year : Nat) :
    yearStart (year + 1) = yearStart year + yearLength (year + 1) := by
  have hleap := isLeap_iff (year + 1)
  rw [yearLength, yearStart, yearStart]
  by_cases h4 : (year + 1) % 4 = 0
  · by_cases h100 : (year + 1) % 100 = 0
    · by_cases h400 : (year + 1) % 400 = 0
      · rw [if_pos (hleap.2 ⟨h4, .inr h400⟩)]
        omega
      · rw [if_neg fun h => (hleap.1 h).2.elim (· h100) h400]
        omega
    · rw [if_pos (hleap.2 ⟨h4, .inl h100⟩)]
      omega
  · -- no leap day, so that no quotient changes
    have hfour : (year + 1) / 4 = year / 4 := by omega
    have hhundred : (year + 1) / 100 = year / 100 := by omega
    have hcycle : (year + 1) / 400 = year / 400 := by omega
    rw [if_neg fun h => h4 (hleap.1 h).1, hfour, hhundred, hcycle]
    omega

/-- Years that start in March follow each other. -/
theorem yearStart_mono : Monotone yearStart :=
  monotone_nat_of_le_succ fun year => by
    rw [yearStart_succ]
    exact Nat.le_add_right _ _

/-- A cycle of 400 years has 146097 days. -/
theorem yearStart_add_cycles (cycles year : Nat) :
    yearStart (400 * cycles + year) = 146097 * cycles + yearStart year := by
  unfold yearStart
  omega

/-- Each day is in some year that starts in March. -/
theorem exists_marchYear (day : Nat) :
    ∃ year index, yearStart year + index = day ∧ index < yearLength (year + 1) := by
  induction day with
  | zero => exact ⟨0, 0, rfl, by decide⟩
  | succ day ih =>
    obtain ⟨year, index, rfl, hindex⟩ := ih
    by_cases hlast : index + 1 < yearLength (year + 1)
    · exact ⟨year, index + 1, rfl, hlast⟩
    · refine ⟨year + 1, 0, ?_, by unfold yearLength; split <;> omega⟩
      rw [yearStart_succ]
      omega

/-- The year of a cycle does not fall from one day to the next. -/
theorem yearOfCycle_le_succ {day : Nat} (h : day + 1 < 146097) :
    yearOfCycle day ≤ yearOfCycle (day + 1) := by
  rcases Nat.lt_or_eq_of_le (Nat.le_of_lt_succ h) with hlt | heq
  · have hquad : (day + 1) / 1460 ≤ day / 1460 + 1 := by omega
    have hcentury : day / 36524 ≤ (day + 1) / 36524 := Nat.div_le_div_right (Nat.le_succ day)
    rw [yearOfCycle, yearOfCycle, Nat.div_eq_of_lt hlt,
      Nat.div_eq_of_lt (Nat.lt_of_succ_lt hlt), Nat.sub_zero, Nat.sub_zero]
    apply Nat.div_le_div_right
    omega
  · -- the last day of a cycle, which is the 29th of February of its last year
    obtain rfl : day = 146095 := by omega
    decide

/-- The year of a cycle does not fall from one day to a later one. -/
theorem yearOfCycle_mono {day later : Nat} (h : day ≤ later) (hlater : later < 146097) :
    yearOfCycle day ≤ yearOfCycle later := by
  induction h with
  | refl => exact Nat.le_refl _
  | step _ ih => exact Nat.le_trans (ih (by omega)) (yearOfCycle_le_succ hlater)

/-- The first and the last day of each year of a cycle are in this year. -/
theorem yearOfCycle_first_last : ∀ year < 400,
    yearOfCycle (yearStart year) = year ∧ yearOfCycle (yearStart (year + 1) - 1) = year := by
  decide +kernel

/-- **The year of a cycle in which a day lies.**

**Proof sketch.** It is at least that of the first day of the year, and at most that of the last
one. -/
theorem yearOfCycle_eq {year day : Nat} (h : year < 400) (hstart : yearStart year ≤ day)
    (hend : day < yearStart (year + 1)) : yearOfCycle day = year := by
  have hcycle : yearStart (year + 1) ≤ 146097 := yearStart_mono h
  obtain ⟨hfirst, hlast⟩ := yearOfCycle_first_last year h
  apply Nat.le_antisymm
  · exact Nat.le_trans (yearOfCycle_mono (by omega) (by omega)) (Nat.le_of_eq hlast)
  · exact Nat.le_trans (Nat.le_of_eq hfirst.symm) (yearOfCycle_mono hstart (by omega))

/-- The year and the day of the year that are found for a day of a cycle. -/
theorem place_in_cycle {year index : Nat} (h : year < 400)
    (hindex : index < yearLength (year + 1)) :
    yearStart year + index < 146097 ∧ yearOfCycle (yearStart year + index) = year ∧
      dayOfYear (yearStart year + index) = index := by
  have hlater := yearStart_succ year
  have hcycle : yearStart (year + 1) ≤ 146097 := yearStart_mono h
  have hyear : yearOfCycle (yearStart year + index) = year :=
    yearOfCycle_eq h (Nat.le_add_right _ _) (by omega)
  refine ⟨by omega, hyear, ?_⟩
  simp only [dayOfYear, hyear]
  unfold yearStart
  omega

/-- The years of a cycle have the lengths of those of the first one. -/
theorem yearLength_add_cycles (cycles year : Nat) :
    yearLength (400 * cycles + year) = yearLength year := by
  have hleap : isLeap (400 * cycles + year) = isLeap year := by
    rw [Bool.eq_iff_iff, isLeap_iff, isLeap_iff]
    omega
  rw [yearLength, yearLength, hleap]

/-- **The date of a day, by its place in a year that starts in March.** -/
theorem ofDays_eq {days year index : Nat} (h : yearStart year + index = days + 719468)
    (hindex : index < yearLength (year + 1)) : ofDays days = ofMarchYear year index := by
  -- the cycle, and the year of the cycle
  obtain ⟨cycle, place, hplace, rfl⟩ : ∃ c y, y < 400 ∧ year = 400 * c + y :=
    ⟨year / 400, year % 400, Nat.mod_lt _ (by decide), by omega⟩
  rw [Nat.add_assoc, yearLength_add_cycles] at hindex
  rw [yearStart_add_cycles] at h
  obtain ⟨hcycle, hyear, hday⟩ := place_in_cycle hplace hindex
  have hdiv : (days + 719468) / 146097 = cycle := by omega
  have hmod : (days + 719468) % 146097 = yearStart place + index := by omega
  simp only [ofDays, hdiv, hmod, hyear, hday, ofMarchYear, civilMonth, monthStart,
    Nat.add_comm place, Nat.mul_comm cycle]
  rfl

/-! ## Months from March on -/

/-- A year has 365 or 366 days. -/
theorem yearLength_bounds (year : Nat) : 365 ≤ yearLength year ∧ yearLength year ≤ 366 := by
  unfold yearLength
  split <;> omega

/-- Each day of a year that starts in March is in some month. -/
theorem exists_marchMonth {index : Nat} (h : index < 366) :
    ∃ month day, month < 12 ∧ index = monthStart month + day ∧
      monthStart month + day < monthStart (month + 1) := by
  refine ⟨(5 * index + 2) / 153, index - monthStart ((5 * index + 2) / 153), ?_⟩
  unfold monthStart
  omega

/-- The date of a day, by its place in a month. -/
theorem ofMarchYear_eq (year : Nat) {month day : Nat} (hmonth : month < 12)
    (h : monthStart month + day < monthStart (month + 1)) :
    ofMarchYear year (monthStart month + day) =
      ⟨year + if month < 10 then 0 else 1, civilMonth month, day + 1⟩ := by
  have hdiv : (5 * (monthStart month + day) + 2) / 153 = month := by
    unfold monthStart at *
    omega
  have hyear : (if civilMonth month ≤ 2 then 1 else 0) = if month < 10 then 0 else 1 := by
    unfold civilMonth
    split <;> split <;> omega
  simp only [ofMarchYear, hdiv, hyear, Nat.add_sub_cancel_left]

/-- The months from March on have the lengths of the calendar, where February has what is left of
the year. -/
theorem monthLength_civilMonth (year : Nat) {month : Nat} (h : month < 12) :
    monthStart month + monthLength (year + if month < 10 then 0 else 1) (civilMonth month) =
      min (monthStart (month + 1)) (yearLength (year + 1)) := by
  obtain ⟨hshort, hlong⟩ := yearLength_bounds (year + 1)
  by_cases hfebruary : month = 11
  · subst hfebruary
    simp only [monthLength, yearLength, monthStart, civilMonth] at *
    cases hleap : isLeap (year + 1) <;> simp [hleap]
  · have hregular : ∀ month < 11, civilMonth month ≠ 2 ∧ monthStart (month + 1) ≤ 365 ∧
        monthStart (month + 1) = monthStart month +
          if civilMonth month = 4 || civilMonth month = 6 || civilMonth month = 9 ||
            civilMonth month = 11 then 30 else 31 := by decide
    obtain ⟨hne, hle, hlength⟩ := hregular month (by omega)
    rw [monthLength, if_neg hne, ← hlength]
    omega

/-- A date by its place in a month is one of the calendar. -/
theorem valid_ofMarchYear {year index : Nat} (h : index < yearLength (year + 1)) :
    (ofMarchYear year index).Valid := by
  obtain ⟨hshort, hlong⟩ := yearLength_bounds (year + 1)
  obtain ⟨month, day, hmonth, rfl, hday⟩ := exists_marchMonth (Nat.lt_of_lt_of_le h hlong)
  have hlength := monthLength_civilMonth year hmonth
  rw [ofMarchYear_eq year hmonth hday]
  refine ⟨?_, ?_, Nat.le_add_left 1 day, ?_⟩
  · dsimp only
    unfold civilMonth
    split <;> omega
  · dsimp only
    unfold civilMonth
    split <;> omega
  · dsimp only
    omega

/-- **The next date is that of the next day**, in the same year that starts in March or at the
start of the next one.

**Proof sketch.** A day that is not the last one of its month is followed by one of the same month.
The last one of a month, unless that is February, is followed by the first one of the next month,
and the last one of February by the first one of a year. -/
theorem next_ofMarchYear {year index : Nat} (h : index < yearLength (year + 1)) :
    (ofMarchYear year index).next =
      if index + 1 < yearLength (year + 1) then ofMarchYear year (index + 1)
      else ofMarchYear (year + 1) 0 := by
  obtain ⟨hshort, hlong⟩ := yearLength_bounds (year + 1)
  obtain ⟨month, day, hmonth, rfl, hday⟩ := exists_marchMonth (Nat.lt_of_lt_of_le h hlong)
  have hlength := monthLength_civilMonth year hmonth
  rw [ofMarchYear_eq year hmonth hday]
  by_cases hlast : day + 1 < monthLength (year + if month < 10 then 0 else 1) (civilMonth month)
  · have hwithin : monthStart month + day + 1 < yearLength (year + 1) := by omega
    rw [if_pos hwithin, Nat.add_assoc, ofMarchYear_eq year hmonth (by omega), next, if_pos hlast]
  · rw [next, if_neg hlast]
    dsimp only
    by_cases hfebruary : month = 11
    · subst hfebruary
      have hend : monthStart (11 + 1) = 367 := rfl
      have hover : ¬ monthStart 11 + day + 1 < yearLength (year + 1) := by omega
      rw [if_neg hover]
      rfl
    · have hend : monthStart (month + 1) ≤ 337 := by
        unfold monthStart
        omega
      have hstarts : monthStart (month + 1) + 0 < monthStart (month + 1 + 1) := by
        unfold monthStart
        omega
      have hfirst := ofMarchYear_eq year (by omega) hstarts
      have hnext : monthStart month + day + 1 = monthStart (month + 1) + 0 := by omega
      have hwithin : monthStart (month + 1) + 0 < yearLength (year + 1) := by omega
      rw [hnext, if_pos hwithin, hfirst]
      -- the year goes on after December, which is the tenth month from March
      by_cases hdecember : month = 9
      · subst hdecember
        rfl
      · have hcivil : civilMonth month < 12 ∧ civilMonth (month + 1) = civilMonth month + 1 := by
          unfold civilMonth
          split <;> split <;> omega
        have hyear : (if month + 1 < 10 then 0 else 1) = if month < 10 then 0 else 1 := by
          split <;> split <;> omega
        rw [if_pos hcivil.1, hcivil.2, hyear]

/-! ## The date of a day -/

/-- **The date of the next day is the next date.** -/
theorem ofDays_succ (days : Nat) : ofDays (days + 1) = (ofDays days).next := by
  obtain ⟨year, index, hplace, hindex⟩ := exists_marchYear (days + 719468)
  rw [ofDays_eq hplace hindex, next_ofMarchYear hindex]
  have hlater := yearStart_succ year
  split
  · next hlast => exact ofDays_eq (by omega) hlast
  · next hlast =>
    refine ofDays_eq (by omega) ?_
    exact Nat.lt_of_lt_of_le (by decide) (yearLength_bounds (year + 1 + 1)).1

/-- **The date of a day is one of the calendar.** -/
theorem valid_ofDays (days : Nat) : (ofDays days).Valid := by
  obtain ⟨year, index, hplace, hindex⟩ := exists_marchYear (days + 719468)
  rw [ofDays_eq hplace hindex]
  exact valid_ofMarchYear hindex

/-- No date that comes next is in an earlier year. -/
theorem year_le_next (d : Date) : d.year ≤ d.next.year := by
  unfold next
  split
  · exact Nat.le_refl _
  · split
    · exact Nat.le_refl _
    · exact Nat.le_succ _

/-- The date of a day is in 1970 or later. -/
theorem year_ofDays_ge (days : Nat) : 1970 ≤ (ofDays days).year := by
  induction days with
  | zero => decide
  | succ days ih =>
    rw [ofDays_succ]
    exact Nat.le_trans ih (year_le_next _)

/-- **Before the date of a day there are as many days as were counted.**

**Proof sketch.** Induction on the days: the next date has one more day before it. -/
theorem dayNumber_ofDays (days : Nat) : (ofDays days).dayNumber = days := by
  induction days with
  | zero => decide
  | succ days ih =>
    rw [ofDays_succ, dayNumber_next (valid_ofDays days) (year_ofDays_ge days), ih]

end Date

end CopyTrial
