/-
**Rounding.**

Python's `round`, to the nearest number of so many decimals and to the even one of two, and `int`, toward zero,
on exact numbers.

* `roundHalfEven_le`, `le_roundHalfEven` — a rounded number is within a half.
* `roundHalfEven_eq` — **an integer within less than a half is what a number is rounded to**.
-/

import Mathlib.Data.Rat.Floor
import Mathlib.Tactic.Linarith

namespace SuiteCloud.Library

variable {x : ℚ}

/-- The nearest integer; of two, the even one. -/
def roundHalfEven (x : ℚ) : ℤ :=
  let rest := x - ⌊x⌋
  if rest < 1 / 2 then ⌊x⌋
  else if 1 / 2 < rest then ⌊x⌋ + 1
  else if ⌊x⌋ % 2 = 0 then ⌊x⌋
  else ⌊x⌋ + 1

/-- **`round(x, digits)`.** -/
def roundTo (digits : ℕ) (x : ℚ) : ℚ := roundHalfEven (x * 10 ^ digits) / 10 ^ digits

/-- **`int(x)`.** -/
def truncate (x : ℚ) : ℤ := if x < 0 then ⌈x⌉ else ⌊x⌋

theorem truncate_of_nonneg (nonneg : 0 ≤ x) : truncate x = ⌊x⌋ := if_neg (not_lt.mpr nonneg)

/-- What a number is rounded to is one of the integers around it. -/
theorem roundHalfEven_cases (x : ℚ) :
    (roundHalfEven x = ⌊x⌋ ∧ x - ⌊x⌋ ≤ 1 / 2) ∨ (roundHalfEven x = ⌊x⌋ + 1 ∧ 1 / 2 ≤ x - ⌊x⌋) := by
  unfold roundHalfEven
  simp only
  split_ifs with less more even
  · exact .inl ⟨rfl, less.le⟩
  · exact .inr ⟨rfl, more.le⟩
  · exact .inl ⟨rfl, not_lt.mp more⟩
  · exact .inr ⟨rfl, not_lt.mp less⟩

theorem roundHalfEven_le (x : ℚ) : (roundHalfEven x : ℚ) ≤ x + 1 / 2 := by
  obtain ⟨rounded, -⟩ | ⟨rounded, rest⟩ := roundHalfEven_cases x
  · rw [rounded]
    have := Int.floor_le x
    linarith
  · rw [rounded]
    push_cast
    linarith

theorem le_roundHalfEven (x : ℚ) : x - 1 / 2 ≤ roundHalfEven x := by
  obtain ⟨rounded, rest⟩ | ⟨rounded, -⟩ := roundHalfEven_cases x
  · rw [rounded]
    linarith
  · rw [rounded]
    push_cast
    have := (Int.lt_floor_add_one x).le
    linarith

/-- **An integer within less than a half** is what a number is rounded to. -/
theorem roundHalfEven_eq {m : ℤ} (above : x < m + 1 / 2) (below : m - 1 / 2 < x) : roundHalfEven x = m := by
  have least := le_roundHalfEven x
  have most := roundHalfEven_le x
  have upper : (roundHalfEven x : ℚ) < m + 1 := by linarith
  have lower : (m : ℚ) < roundHalfEven x + 1 := by linarith
  have upper : roundHalfEven x < m + 1 := by exact_mod_cast upper
  have lower : m < roundHalfEven x + 1 := by exact_mod_cast lower
  omega

theorem roundTo_pos {digits : ℕ} : 0 < roundTo digits x ↔ 0 < roundHalfEven (x * 10 ^ digits) := by
  have scale : (0 : ℚ) < 10 ^ digits := by positivity
  rw [roundTo, div_pos_iff_of_pos_right scale, Int.cast_pos]

example : roundTo 6 (1 / 1073741824) = 0 ∧ truncate (-5 / 2) = -2 := by decide +kernel

end SuiteCloud.Library
