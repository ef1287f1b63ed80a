import Mathlib.Algebra.Order.Ring.Nat
import Mathlib.Order.Monotone.Basic

/-!
# The Gregorian calendar

Days are counted from the first of March of the year 0, so that the day that a leap year has more
is the last one of its year. A year is that from March to February, and a month is counted from
March on. The year of a day is found through the cycles of 400, 100 and 4 years.
-/

namespace Calendar

/-- The days before the first of March of a year. -/
def yearStart (year : Nat) : Nat := 365 * year + year / 4 - year / 100 + year / 400

/-- The days of a year before a month. -/
def monthStart (month : Nat) : Nat := (153 * month + 2) / 5

/-- The year of a day. The last century of 400 years and the last year of four have a day more. -/
def yearOf (day : Nat) : Nat :=
  let inCycle := day % 146097
  let century := min (inCycle / 36524) 3
  let inCentury := inCycle - 36524 * century
  let inFour := inCentury % 1461
  400 * (day / 146097) + 100 * century + 4 * (inCentury / 1461) + min (inFour / 365) 3

/-- The month of a day of a year. -/
def monthOf (dayOfYear : Nat) : Nat := (5 * dayOfYear + 2) / 153

/-- A day by year, month and day of the month, all counted from 0. -/
structure Date where
  year : Nat
  month : Nat
  day : Nat
deriving DecidableEq

def Date.number (date : Date) : Nat := yearStart date.year + monthStart date.month + date.day

def dateOf (day : Nat) : Date :=
  let dayOfYear := day - yearStart (yearOf day)
  ⟨yearOf day, monthOf dayOfYear, dayOfYear - monthStart (monthOf dayOfYear)⟩

/-- The parts of a year number, and where the year starts. -/
theorem yearStart_parts {cycle century four year : Nat} (hcentury : century ≤ 3) (hfour : four ≤ 24)
    (hyear : year ≤ 3) :
    yearStart (400 * cycle + 100 * century + 4 * four + year) =
      146097 * cycle + 36524 * century + 1461 * four + 365 * year := by
  rw [yearStart]
  omega

/-- A day lies in its year. -/
theorem yearOf_spec (day : Nat) :
    yearStart (yearOf day) ≤ day ∧ day - yearStart (yearOf day) ≤ 365 := by
  have hcycle : day % 146097 < 146097 := Nat.mod_lt _ (by decide)
  have hsplit := Nat.div_add_mod day 146097
  rw [yearOf]
  set inCycle := day % 146097
  set century := min (inCycle / 36524) 3 with hcentury
  set inCentury := inCycle - 36524 * century with hinCentury
  have hbound : inCentury ≤ 36524 := by omega
  have hfour := Nat.div_add_mod inCentury 1461
  have hrest : inCentury % 1461 < 1461 := Nat.mod_lt _ (by decide)
  rw [yearStart_parts (by omega) (by omega) (by omega)]
  omega

/-- A day lies in its month. -/
theorem monthOf_spec {dayOfYear : Nat} (h : dayOfYear ≤ 365) :
    monthOf dayOfYear ≤ 11 ∧ monthStart (monthOf dayOfYear) ≤ dayOfYear ∧
      dayOfYear - monthStart (monthOf dayOfYear) ≤ 30 := by
  rw [monthOf, monthStart]
  omega

/-- The date of a day is that day. -/
theorem number_dateOf (day : Nat) : (dateOf day).number = day := by
  obtain ⟨hyear, hdays⟩ := yearOf_spec day
  obtain ⟨-, hmonth, -⟩ := monthOf_spec hdays
  simp only [Date.number, dateOf]
  omega

theorem dateOf_bounds (day : Nat) : (dateOf day).month ≤ 11 ∧ (dateOf day).day ≤ 30 := by
  obtain ⟨-, hdays⟩ := yearOf_spec day
  obtain ⟨hmonth, -, hday⟩ := monthOf_spec hdays
  exact ⟨hmonth, hday⟩

theorem yearStart_mono : Monotone yearStart := by
  refine monotone_nat_of_le_succ fun year => ?_
  rw [yearStart, yearStart]
  omega

end Calendar
