import Mathlib.Data.String.Basic
import Mathlib.Order.Monotone.Basic
import Mathlib.Tactic.Tauto
import CopyTrial.Proofs.Timestamp

/-!
# The order of timestamps

A later day has a later date, and the fields of a timestamp stand from the longest to the shortest,
each as wide as the largest number that it may have. So timestamps compare as texts in the way the
moments do that they were written for, as long as the year has four digits.

## Main definitions

* `Date.Before` — an earlier date.
* `Instant.Regular`, `Instant.millis` — an instant that has a timestamp of the usual width, and the
  whole milliseconds of an instant.

## Main results

* `Date.before_ofDays_iff` — dates stand in the order of days.
* `timestamp_lt_timestamp_iff` — timestamps stand in the order of moments.
* `Instant.timestamp_lt_iff`, `Instant.timestamp_eq_iff` — timestamps of instants compare by
  milliseconds.
-/

set_option autoImplicit false

namespace CopyTrial

/-! ## Dates -/

namespace Date

/-- A date is earlier than another one. -/
def Before (d d' : Date) : Prop :=
  d.year < d'.year ∨ d.year = d'.year ∧
    (d.month < d'.month ∨ d.month = d'.month ∧ d.day < d'.day)

/-- Dates that are compared field by field, with something else if they are the same. -/
theorem before_or_eq_and_iff (d d' : Date) (p : Prop) :
    (d.year < d'.year ∨ d.year = d'.year ∧ (d.month < d'.month ∨ d.month = d'.month ∧
      (d.day < d'.day ∨ d.day = d'.day ∧ p))) ↔ d.Before d' ∨ d = d' ∧ p := by
  obtain ⟨year, month, day⟩ := d
  obtain ⟨year', month', day'⟩ := d'
  rw [Before, Date.mk.injEq]
  tauto

/-- Earlier dates go on to later ones. -/
instance : IsTrans Date Before where
  trans d d' d'' h h' := by
    unfold Before at *
    omega

/-- The next date is later. -/
theorem before_next (d : Date) : d.Before d.next := by
  unfold next
  split
  · exact .inr ⟨rfl, .inr ⟨rfl, Nat.lt_succ_self _⟩⟩
  · split
    · exact .inr ⟨rfl, .inl (Nat.lt_succ_self _)⟩
    · exact .inl (Nat.lt_succ_self _)

/-- A later day has a later date. -/
theorem before_ofDays {days later : Nat} (h : days < later) :
    (ofDays days).Before (ofDays later) := by
  refine Nat.rel_of_forall_rel_succ_of_lt Before (fun day => ?_) h
  rw [ofDays_succ]
  exact before_next _

/-- **Dates stand in the order of days.** -/
theorem before_ofDays_iff (days days' : Nat) :
    (ofDays days).Before (ofDays days') ↔ days < days' := by
  constructor
  · intro h
    by_contra hle
    rcases Nat.lt_or_eq_of_le (Nat.le_of_not_lt hle) with hlt | rfl
    · have hback := before_ofDays hlt
      unfold Before at h hback
      omega
    · unfold Before at h
      omega
  · exact before_ofDays

/-- Different days have different dates. -/
theorem ofDays_injective : Function.Injective ofDays := by
  intro days days' h
  rw [← dayNumber_ofDays days, h, dayNumber_ofDays]

/-- A later day is in no earlier year. -/
theorem year_ofDays_mono : Monotone fun days => (ofDays days).year :=
  monotone_nat_of_le_succ fun days => by
    rw [ofDays_succ]
    exact year_le_next _

/-- The years of four digits end 2932897 days after the start of 1970. -/
theorem year_ofDays_lt_iff (days : Nat) : (ofDays days).year < 10000 ↔ days < 2932897 := by
  have hlast : (ofDays 2932896).year = 9999 := by decide +kernel
  have hfirst : (ofDays 2932897).year = 10000 := by decide +kernel
  constructor
  · intro h
    by_contra hle
    exact absurd (year_ofDays_mono (Nat.le_of_not_lt hle)) (by dsimp only; omega)
  · intro h
    exact Nat.lt_of_le_of_lt (year_ofDays_mono (Nat.le_of_lt_succ h)) (by dsimp only; omega)

end Date

/-! ## Moments -/

namespace Timestamp

/-- The characters of a timestamp are those of its fields and one behind each. -/
theorem length_fields (date : Date) (hour minute second millis : Nat) :
    (fields date hour minute second millis).length =
      (Numeral.padded 4 date.year).toList.length + (Numeral.padded 2 date.month).toList.length +
        (Numeral.padded 2 date.day).toList.length + (Numeral.padded 2 hour).toList.length +
        (Numeral.padded 2 minute).toList.length + (Numeral.padded 2 second).toList.length +
        (Numeral.padded 3 millis).toList.length + 7 := by
  rw [← String.length_toList, toList_fields]
  simp only [List.length_append, List.length_cons, List.length_nil]
  omega

/-- The fields of a moment before the year 10000 have no more digits than places. -/
theorem length_digits_le {seconds : Nat} (hyear : (Date.ofDays (seconds / 86400)).year < 10000) :
    (Nat.toDigits 10 (Date.ofDays (seconds / 86400)).year).length ≤ 4 ∧
    (Nat.toDigits 10 (Date.ofDays (seconds / 86400)).month).length ≤ 2 ∧
    (Nat.toDigits 10 (Date.ofDays (seconds / 86400)).day).length ≤ 2 ∧
    (Nat.toDigits 10 (seconds % 86400 / 3600)).length ≤ 2 ∧
    (Nat.toDigits 10 (seconds % 86400 % 3600 / 60)).length ≤ 2 ∧
    (Nat.toDigits 10 (seconds % 86400 % 60)).length ≤ 2 := by
  obtain ⟨-, hmonth, -, hday⟩ := Date.valid_ofDays (seconds / 86400)
  have hlength := Date.monthLength_le (Date.ofDays (seconds / 86400)).year
    (Date.ofDays (seconds / 86400)).month
  have htwo {n : Nat} (h : n < 100) : (Nat.toDigits 10 n).length ≤ 2 :=
    Numeral.length_toDigits_le (Nat.succ_pos 1) h
  exact ⟨Numeral.length_toDigits_le (Nat.succ_pos 3) hyear, htwo (by omega), htwo (by omega),
    htwo (by omega), htwo (by omega), htwo (by omega)⟩

end Timestamp

section

variable {seconds millis seconds' millis' : Nat}

/-- The timestamp of a moment before the year 10000 has 24 characters. -/
theorem length_timestamp (hmillis : millis < 1000)
    (hyear : (Date.ofDays (seconds / 86400)).year < 10000) :
    (timestamp seconds millis).length = 24 := by
  obtain ⟨hy, hmo, hd, hh, hmi, hs⟩ := Timestamp.length_digits_le hyear
  have hms := Numeral.length_toDigits_le (Nat.succ_pos 2) hmillis
  rw [Timestamp.timestamp_eq_fields, Timestamp.length_fields, Numeral.length_padded_of_le hy,
    Numeral.length_padded_of_le hmo, Numeral.length_padded_of_le hd, Numeral.length_padded_of_le hh,
    Numeral.length_padded_of_le hmi, Numeral.length_padded_of_le hs,
    Numeral.length_padded_of_le hms]

/-- **Timestamps stand in the order of moments.**

**Proof sketch.** The fields compare one after the other. Those of the date compare as the days do,
and those of the time of the day as the seconds of the day. -/
theorem timestamp_lt_timestamp_iff (hmillis : millis < 1000) (hmillis' : millis' < 1000)
    (hyear : (Date.ofDays (seconds / 86400)).year < 10000)
    (hyear' : (Date.ofDays (seconds' / 86400)).year < 10000) :
    timestamp seconds millis < timestamp seconds' millis' ↔
      seconds < seconds' ∨ seconds = seconds' ∧ millis < millis' := by
  obtain ⟨hy, hmo, hd, hh, hmi, hs⟩ := Timestamp.length_digits_le hyear
  obtain ⟨hy', hmo', hd', hh', hmi', hs'⟩ := Timestamp.length_digits_le hyear'
  have hms := Numeral.length_toDigits_le (Nat.succ_pos 2) hmillis
  have hms' := Numeral.length_toDigits_le (Nat.succ_pos 2) hmillis'
  rw [String.lt_iff_toList_lt, Timestamp.timestamp_eq_fields, Timestamp.timestamp_eq_fields,
    Timestamp.toList_fields, Timestamp.toList_fields,
    Numeral.padded_append_cons_lt_iff hy hy', Numeral.padded_append_cons_lt_iff hmo hmo',
    Numeral.padded_append_cons_lt_iff hd hd', Numeral.padded_append_cons_lt_iff hh hh',
    Numeral.padded_append_cons_lt_iff hmi hmi', Numeral.padded_append_cons_lt_iff hs hs',
    Numeral.padded_append_cons_lt_iff hms hms', Date.before_or_eq_and_iff,
    Date.before_ofDays_iff, Date.ofDays_injective.eq_iff, lt_self_iff_false, and_false, or_false]
  omega

/-- Timestamps of different moments are different. -/
theorem timestamp_eq_timestamp_iff (hmillis : millis < 1000) (hmillis' : millis' < 1000) :
    timestamp seconds millis = timestamp seconds' millis' ↔
      seconds = seconds' ∧ millis = millis' := by
  constructor
  · intro h
    have hread := Timestamp.read?_timestamp seconds hmillis
    rw [h, Timestamp.read?_timestamp seconds' hmillis'] at hread
    obtain ⟨rfl, rfl⟩ := Prod.mk.inj (Option.some.inj hread)
    exact ⟨rfl, rfl⟩
  · rintro ⟨rfl, rfl⟩
    rfl

end

/-! ## Instants -/

namespace Instant

/-- An instant that has a timestamp of the usual width: its nanoseconds are less than a second, and
it is before the year 10000. -/
structure Regular (t : Instant) : Prop where
  nanos_lt : t.nanos < 1000000000
  year_lt : (Date.ofDays (t.seconds.toNat / 86400)).year < 10000

/-- The whole milliseconds from the start of 1970 to an instant, none if it is before that. -/
def millis (t : Instant) : Nat :=
  if t.seconds < 0 then 0 else t.seconds.toNat * 1000 + t.nanos / 1000000

/-- An instant is not after another one. -/
def NotAfter (t t' : Instant) : Prop :=
  t.seconds < t'.seconds ∨ t.seconds = t'.seconds ∧ t.nanos ≤ t'.nanos

variable {t t' : Instant}

/-- The timestamp of an instant is that of its milliseconds, which are before the year 10000. -/
theorem Regular.timestamp_eq (h : t.Regular) :
    t.timestamp = CopyTrial.timestamp (t.millis / 1000) (t.millis % 1000) ∧
      (Date.ofDays (t.millis / 1000 / 86400)).year < 10000 := by
  obtain ⟨hnanos, hyear⟩ := h
  rw [timestamp, millis]
  split
  · exact ⟨rfl, by decide⟩
  · have hseconds : (t.seconds.toNat * 1000 + t.nanos / 1000000) / 1000 = t.seconds.toNat := by
      omega
    have hmillis : (t.seconds.toNat * 1000 + t.nanos / 1000000) % 1000 = t.nanos / 1000000 := by
      omega
    rw [hseconds, hmillis]
    exact ⟨rfl, hyear⟩

/-- **Timestamps of instants stand in the order of their milliseconds.** -/
theorem timestamp_lt_iff (h : t.Regular) (h' : t'.Regular) :
    t.timestamp < t'.timestamp ↔ t.millis < t'.millis := by
  obtain ⟨htimestamp, hyear⟩ := h.timestamp_eq
  obtain ⟨htimestamp', hyear'⟩ := h'.timestamp_eq
  rw [htimestamp, htimestamp', timestamp_lt_timestamp_iff (Nat.mod_lt _ (by decide))
    (Nat.mod_lt _ (by decide)) hyear hyear']
  omega

/-- Instants share a timestamp exactly if they have the same milliseconds. -/
theorem timestamp_eq_iff (h : t.Regular) (h' : t'.Regular) :
    t.timestamp = t'.timestamp ↔ t.millis = t'.millis := by
  rw [h.timestamp_eq.1, h'.timestamp_eq.1, timestamp_eq_timestamp_iff (Nat.mod_lt _ (by decide))
    (Nat.mod_lt _ (by decide))]
  omega

/-- An instant has no more milliseconds than one that it is not after. -/
theorem NotAfter.millis_le (h : t.NotAfter t') (ht : t.Regular) : t.millis ≤ t'.millis := by
  have hnanos := ht.nanos_lt
  unfold NotAfter at h
  unfold millis
  split <;> split <;> omega

/-- An instant has no later timestamp than one that it is not after. -/
theorem NotAfter.timestamp_le (h : t.NotAfter t') (ht : t.Regular) (ht' : t'.Regular) :
    t.timestamp ≤ t'.timestamp := by
  rw [← not_lt, timestamp_lt_iff ht' ht]
  exact Nat.not_lt_of_le (h.millis_le ht)

end Instant

end CopyTrial
