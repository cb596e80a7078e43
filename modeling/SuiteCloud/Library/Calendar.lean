/-
**UTC days and months, numbered.**

A moment is a number of seconds since 1970-01-01 00:00 UTC. `dayIndex` numbers its day and
`monthIndex` the month of a day, in the proleptic Gregorian calendar. Months are counted in years
that begin in March, so that a leap day is the last day of its year: a year splits off a cycle of
400 years, a century, four years and one year in turn, and its months then start at the days
`(153 · m + 2) / 5`.

Only the numbering is kept, not the names: two days have the same `%Y%m` exactly when they have the
same `monthIndex`. What the development uses is that both numberings are monotone
(`dayIndex_mono`, `monthIndex_mono`).
-/

import Mathlib.Tactic.Common
import Mathlib.Order.Monotone.Basic

namespace SuiteCloud.Library

/-- The UTC day of a moment. -/
def dayIndex (moment : ℕ) : ℕ := moment / 86400

theorem dayIndex_mono : Monotone dayIndex := fun _ _ le => Nat.div_le_div_right le

/-! ### Year and day of the year -/

/-- A day of four years: its year and its day in the year. The last year has the leap day. -/
def splitYear (day : ℕ) : ℕ × ℕ := (min (day / 365) 3, day - 365 * min (day / 365) 3)

/-- A day of a century: its year and its day in the year. -/
def splitCentury (day : ℕ) : ℕ × ℕ :=
  (4 * (day / 1461) + (splitYear (day % 1461)).1, (splitYear (day % 1461)).2)

/-- A day of 400 years: its year and its day in the year. The last century has one day more. -/
def splitCycle (day : ℕ) : ℕ × ℕ :=
  (100 * min (day / 36524) 3 + (splitCentury (day - 36524 * min (day / 36524) 3)).1,
    (splitCentury (day - 36524 * min (day / 36524) 3)).2)

/-- A day since 1 March of year 0: its year (from March on) and its day in the year. -/
def marchYear (day : ℕ) : ℕ × ℕ :=
  (400 * (day / 146097) + (splitCycle (day % 146097)).1, (splitCycle (day % 146097)).2)

/-- The month of a UTC day, counted from March of year 0; 1970-01-01 is day `719468` since then. -/
def monthIndex (day : ℕ) : ℕ :=
  12 * (marchYear (day + 719468)).1 + (5 * (marchYear (day + 719468)).2 + 2) / 153

-- The last days of January and of February 1972, a leap year, and the days after them.
example : monthIndex 760 + 1 = monthIndex 761 := by decide
example : monthIndex 789 + 1 = monthIndex 790 := by decide

/-! ### The order of months -/

/-- The next day is one day later in the same year, or the first of the next after its last day. -/
def NextDay (here next : ℕ × ℕ) : Prop :=
  (next.1 = here.1 ∧ next.2 = here.2 + 1) ∨
    (next.1 = here.1 + 1 ∧ 364 ≤ here.2 ∧ next.2 = 0)

theorem splitYear_next (day : ℕ) : NextDay (splitYear day) (splitYear (day + 1)) := by
  delta NextDay
  simp only [splitYear]
  omega

theorem splitYear_bounds {day : ℕ} (inside : day < 1461) :
    (splitYear day).1 < 4 ∧ (splitYear day).2 ≤ 365 := by
  simp only [splitYear]
  omega

theorem splitCentury_next (day : ℕ) : NextDay (splitCentury day) (splitCentury (day + 1)) := by
  by_cases carry : day % 1461 = 1460
  · have quotient : (day + 1) / 1461 = day / 1461 + 1 := by omega
    have rest : (day + 1) % 1461 = 0 := by omega
    have first : splitYear 0 = (0, 0) := rfl
    have last : splitYear 1460 = (3, 365) := rfl
    delta NextDay
    simp only [splitCentury, quotient, rest, carry, first, last]
    exact Or.inr ⟨by omega, by decide, trivial⟩
  · have quotient : (day + 1) / 1461 = day / 1461 := by omega
    have rest : (day + 1) % 1461 = day % 1461 + 1 := by omega
    have next := splitYear_next (day % 1461)
    simp only [NextDay, splitCentury, quotient, rest] at *
    omega

theorem splitCentury_bounds {day : ℕ} (inside : day < 36525) :
    (splitCentury day).1 < 100 ∧ (splitCentury day).2 ≤ 365 := by
  have bounds := splitYear_bounds (Nat.mod_lt day (show 1461 > 0 by decide))
  simp only [splitCentury]
  omega

theorem splitCycle_next (day : ℕ) : NextDay (splitCycle day) (splitCycle (day + 1)) := by
  by_cases carry : min ((day + 1) / 36524) 3 = min (day / 36524) 3
  · have rest : day + 1 - 36524 * min (day / 36524) 3
        = day - 36524 * min (day / 36524) 3 + 1 := by omega
    have next := splitCentury_next (day - 36524 * min (day / 36524) 3)
    simp only [NextDay, splitCycle, carry, rest] at *
    omega
  · have quotient : min ((day + 1) / 36524) 3 = min (day / 36524) 3 + 1 := by omega
    have rest : day + 1 - 36524 * (min (day / 36524) 3 + 1) = 0 := by omega
    have ends : day - 36524 * min (day / 36524) 3 = 36523 := by omega
    have first : splitCentury 0 = (0, 0) := rfl
    have last : splitCentury 36523 = (99, 364) := rfl
    delta NextDay
    simp only [splitCycle, quotient, rest, ends, first, last]
    exact Or.inr ⟨by omega, by decide, trivial⟩

theorem splitCycle_bounds {day : ℕ} (inside : day < 146097) :
    (splitCycle day).1 < 400 ∧ (splitCycle day).2 ≤ 365 := by
  have bounds := splitCentury_bounds (show day - 36524 * min (day / 36524) 3 < 36525 by omega)
  simp only [splitCycle]
  omega

theorem marchYear_next (day : ℕ) : NextDay (marchYear day) (marchYear (day + 1)) := by
  by_cases carry : day % 146097 = 146096
  · have quotient : (day + 1) / 146097 = day / 146097 + 1 := by omega
    have rest : (day + 1) % 146097 = 0 := by omega
    have first : splitCycle 0 = (0, 0) := rfl
    have last : splitCycle 146096 = (399, 365) := rfl
    delta NextDay
    simp only [marchYear, quotient, rest, carry, first, last]
    exact Or.inr ⟨by omega, by decide, trivial⟩
  · have quotient : (day + 1) / 146097 = day / 146097 := by omega
    have rest : (day + 1) % 146097 = day % 146097 + 1 := by omega
    have next := splitCycle_next (day % 146097)
    simp only [NextDay, marchYear, quotient, rest] at *
    omega

/-- **Months follow the days.** -/
theorem monthIndex_mono : Monotone monthIndex := by
  refine monotone_nat_of_le_succ fun day => ?_
  have inYear : (marchYear (day + 719468)).2 ≤ 365 :=
    (splitCycle_bounds (Nat.mod_lt (day + 719468) (show 146097 > 0 by decide))).2
  have next := marchYear_next (day + 719468)
  have shift : day + 1 + 719468 = day + 719468 + 1 := by omega
  simp only [monthIndex, shift, NextDay] at *
  omega

end SuiteCloud.Library
