import Mathlib.Order.Monotone.Basic
import Mathlib.Data.Int.ConditionallyCompleteOrder
import Mathlib.Data.Int.SuccPred
import Mathlib.Order.SuccPred.Basic
import Mathlib.Algebra.Order.SuccPred

/-!
# The Gregorian calendar

Days are numbered from 1 January 1970, months from January of the year 0, so that
month `12 * y + m` is the month `m` (January is 0) of the year `y`; both extend
without end in both directions.

* `Calendar.firstDay` is the first day of a month: an increasing function whose
  steps, the lengths of the months, are between 28 and 31 days.
* `Calendar.monthOf` is the month a day lies in, and `Calendar.monthOf_eq_iff`
  characterises it by the first days of the two months around the day.
-/

namespace Calendar

/-- The day added to February of the year: 1 in a leap year, and 0 otherwise. -/
def leapDay (year : Int) : Int :=
  if year % 4 = 0 ∧ (year % 100 ≠ 0 ∨ year % 400 = 0) then 1 else 0

/-- The first day of a year. -/
def yearStart (year : Int) : Int :=
  365 * (year - 1970) + (year - 1969) / 4 - (year - 1901) / 100 + (year - 1601) / 400

/-- The days of a year before the first of its month `month`.  From March on the
months of 31 and 30 days alternate five at a time, 153 days in all. -/
def monthStart (leap month : Int) : Int :=
  if month < 2 then 31 * month else 59 + leap + (153 * (month - 2) + 2) / 5

/-- The first day of a month. -/
def firstDay (month : Int) : Int :=
  yearStart (month / 12) + monthStart (leapDay (month / 12)) (month % 12)

/-- The year a day lies in.  400 years have 146097 days, and a year found by that
proportion is off by one at most. -/
def yearOf (day : Int) : Int :=
  let year := 1970 + 400 * day / 146097
  if day < yearStart year then year - 1
  else if yearStart (year + 1) ≤ day then year + 1
  else year

/-- The month of its year that the day lies in, from the days before it in the year. -/
def monthWithin (leap day : Int) : Int :=
  if day < 59 + leap then day / 31 else 2 + (5 * (day - 59 - leap) + 2) / 153

/-- The month a day lies in. -/
def monthOf (day : Int) : Int :=
  12 * yearOf day + monthWithin (leapDay (yearOf day)) (day - yearStart (yearOf day))

/-- The day of the month, from 1. -/
def dayOfMonth (day : Int) : Int := day - firstDay (monthOf day) + 1

/-- The day of the week; Sunday is 0.  The epoch was a Thursday. -/
def dayOfWeek (day : Int) : Int := (day + 4) % 7

theorem leapDay_mem (year : Int) : leapDay year = 0 ∨ leapDay year = 1 := by
  unfold leapDay
  split
  · exact .inr rfl
  · exact .inl rfl

theorem yearStart_succ (year : Int) :
    yearStart (year + 1) = yearStart year + 365 + leapDay year := by
  unfold yearStart leapDay
  split <;> omega

theorem yearOf_spec (day : Int) :
    yearStart (yearOf day) ≤ day ∧ day < yearStart (yearOf day + 1) := by
  -- the first day of a year is within two days of the proportion
  have hNear : yearStart (1970 + 400 * day / 146097 - 1) ≤ day ∧
      day < yearStart (1970 + 400 * day / 146097 + 2) := by
    unfold yearStart
    omega
  unfold yearOf
  simp only
  split
  · have : 1970 + 400 * day / 146097 - 1 + 1 = 1970 + 400 * day / 146097 := by omega
    rw [this]
    omega
  · split
    · have : 1970 + 400 * day / 146097 + 1 + 1 = 1970 + 400 * day / 146097 + 2 := by omega
      rw [this]
      omega
    · omega

theorem monthWithin_spec {leap day : Int} (hLeap : leap = 0 ∨ leap = 1) (hDay : 0 ≤ day)
    (hYear : day < 365 + leap) :
    0 ≤ monthWithin leap day ∧ monthWithin leap day < 12 ∧
      monthStart leap (monthWithin leap day) ≤ day ∧
        (monthWithin leap day < 11 → day < monthStart leap (monthWithin leap day + 1)) := by
  unfold monthWithin monthStart
  split <;> split <;> (try split) <;> omega

theorem firstDay_succ (month : Int) :
    firstDay month + 28 ≤ firstDay (month + 1) ∧ firstDay (month + 1) ≤ firstDay month + 31 := by
  have hLeap := leapDay_mem (month / 12)
  unfold firstDay monthStart
  by_cases hDecember : month % 12 = 11
  · have hYear : (month + 1) / 12 = month / 12 + 1 := by omega
    have hNext := yearStart_succ (month / 12)
    rw [hYear]
    split <;> split <;> omega
  · have hYear : (month + 1) / 12 = month / 12 := by omega
    rw [hYear]
    split <;> split <;> omega

theorem firstDay_strictMono : StrictMono firstDay := by
  apply strictMono_int_of_lt_succ
  intro month
  have := firstDay_succ month
  omega

@[simp] theorem firstDay_lt_firstDay {month other : Int} :
    firstDay month < firstDay other ↔ month < other := firstDay_strictMono.lt_iff_lt

@[simp] theorem firstDay_le_firstDay {month other : Int} :
    firstDay month ≤ firstDay other ↔ month ≤ other := firstDay_strictMono.le_iff_le

theorem monthOf_spec (day : Int) :
    firstDay (monthOf day) ≤ day ∧ day < firstDay (monthOf day + 1) := by
  obtain ⟨hStart, hEnd⟩ := yearOf_spec day
  have hLength := yearStart_succ (yearOf day)
  have hDay : 0 ≤ day - yearStart (yearOf day) := by omega
  obtain ⟨hNonneg, hLt, hLow, hHigh⟩ :=
    monthWithin_spec (leapDay_mem (yearOf day)) hDay (by omega)
  generalize hMonth : monthWithin (leapDay (yearOf day)) (day - yearStart (yearOf day)) = month
    at hNonneg hLt hLow hHigh
  have hYear : (12 * yearOf day + month) / 12 = yearOf day := by omega
  have hWithin : (12 * yearOf day + month) % 12 = month := by omega
  unfold monthOf
  rw [hMonth]
  refine ⟨?_, ?_⟩
  · unfold firstDay
    rw [hYear, hWithin]
    omega
  · unfold firstDay
    -- after December the next year starts
    by_cases hDecember : month = 11
    · have hNext : (12 * yearOf day + month + 1) / 12 = yearOf day + 1 := by omega
      have hJanuary : (12 * yearOf day + month + 1) % 12 = 0 := by omega
      rw [hNext, hJanuary]
      simp only [monthStart]
      omega
    · have hSame : (12 * yearOf day + month + 1) / 12 = yearOf day := by omega
      have hFollowing : (12 * yearOf day + month + 1) % 12 = month + 1 := by omega
      have := hHigh (by omega)
      rw [hSame, hFollowing]
      omega

/-- A day lies in the month that begins at or before it and whose successor begins
after it. -/
theorem monthOf_eq_iff {day month : Int} :
    monthOf day = month ↔ firstDay month ≤ day ∧ day < firstDay (month + 1) := by
  constructor
  · rintro rfl
    exact monthOf_spec day
  · rintro ⟨hLow, hHigh⟩
    obtain ⟨hStart, hEnd⟩ := monthOf_spec day
    have hLe : monthOf day < month + 1 := firstDay_lt_firstDay.mp (by omega)
    have hGe : month < monthOf day + 1 := firstDay_lt_firstDay.mp (by omega)
    omega

@[simp] theorem monthOf_firstDay (month : Int) : monthOf (firstDay month) = month :=
  monthOf_eq_iff.mpr ⟨le_rfl, firstDay_lt_firstDay.mpr (by omega)⟩

theorem monthOf_mono {day other : Int} (h : day ≤ other) : monthOf day ≤ monthOf other := by
  obtain ⟨hStart, -⟩ := monthOf_spec day
  obtain ⟨-, hEnd⟩ := monthOf_spec other
  have : monthOf day < monthOf other + 1 := firstDay_lt_firstDay.mp (by omega)
  omega

theorem monthOf_succ_le (day : Int) : monthOf (day + 1) ≤ monthOf day + 1 := by
  have hDay := (monthOf_spec day).2
  have hNext := (monthOf_spec (day + 1)).1
  have hLength := firstDay_succ (monthOf day + 1)
  have : monthOf (day + 1) < monthOf day + 1 + 1 := firstDay_lt_firstDay.mp (by omega)
  omega

@[simp] theorem dayOfMonth_firstDay (month : Int) : dayOfMonth (firstDay month) = 1 := by
  simp [dayOfMonth]

theorem dayOfMonth_pos (day : Int) : 1 ≤ dayOfMonth day := by
  have := monthOf_spec day
  unfold dayOfMonth
  omega

theorem dayOfMonth_le (day : Int) : dayOfMonth day ≤ 31 := by
  have := monthOf_spec day
  have := firstDay_succ (monthOf day)
  unfold dayOfMonth
  omega

/-- The number of days of a month. -/
def daysIn (month : Int) : Int := firstDay (month + 1) - firstDay month

theorem dayOfMonth_le_daysIn (day : Int) : dayOfMonth day ≤ daysIn (monthOf day) := by
  have := monthOf_spec day
  unfold dayOfMonth daysIn
  omega

section

variable {month date : Int} (hPos : 1 ≤ date) (hLe : date ≤ daysIn month)
include hPos hLe

theorem monthOf_date : monthOf (firstDay month + date - 1) = month := by
  unfold daysIn at hLe
  exact monthOf_eq_iff.mpr ⟨by omega, by omega⟩

theorem dayOfMonth_date : dayOfMonth (firstDay month + date - 1) = date := by
  unfold dayOfMonth
  rw [monthOf_date hPos hLe]
  omega

end

theorem firstDay_add_le {month other : Int} (h : month < other) :
    firstDay month + 28 ≤ firstDay other := by
  have := firstDay_succ month
  have : firstDay (month + 1) ≤ firstDay other := firstDay_le_firstDay.mpr h
  omega

/-- 1 February 2021 was a Monday. -/
example : dayOfWeek (firstDay (12 * 2021 + 1)) = 1 := by decide

end Calendar
