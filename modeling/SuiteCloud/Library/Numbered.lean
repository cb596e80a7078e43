/-
**Labels that are numbered: a stem and a decimal number.**

* `numberOf` — the number of a label that is the stem and digits; `numberOf_append`.
* `highest` — the highest number among labels; `le_highest`.
-/

import SuiteCloud.Library.Text

namespace SuiteCloud.Library

variable {stem label : String} {labels : List String} {n : ℕ}

/-- The number a label gives after the stem, where digits alone follow it. -/
def numberOf (stem label : String) : Option ℕ :=
  if stem.toList.isPrefixOf label.toList then
    let digits := label.toList.drop stem.toList.length
    if digits ≠ [] ∧ digits.all Char.isDigit then some (Nat.ofDigitChars 10 digits 0) else none
  else none

/-- The highest number of labels under a stem; 0 where none has one. -/
def highest (stem : String) (labels : List String) : ℕ :=
  (labels.filterMap (numberOf stem)).foldr max 0

example : highest "n" ["n2", "n10", "g11", "n", "n7x"] = 10 := by decide

/-- **A numbered label gives its number back.** -/
theorem numberOf_append (stem : String) (n : ℕ) : numberOf stem (stem ++ toString n) = some n := by
  have starts : stem.toList.isPrefixOf (stem.toList ++ (toString n).toList) = true :=
    List.isPrefixOf_iff_prefix.mpr (List.prefix_append _ _)
  have digits : (toString n).toList ≠ [] ∧ (toString n).toList.all Char.isDigit := by
    refine ⟨?_, List.all_eq_true.mpr fun c member => decimal_digits member⟩
    intro empty
    have none : Nat.toDigits 10 n = [] := by
      rw [← Nat.toList_repr]
      exact empty
    exact Nat.toDigits_ne_nil none
  have value : Nat.ofDigitChars 10 (toString n).toList 0 = n := by
    show Nat.ofDigitChars 10 n.repr.toList 0 = n
    rw [Nat.toList_repr]
    exact Nat.ofDigitChars_toDigits (by decide) (Nat.le_refl 10)
  rw [numberOf, String.toList_append, if_pos starts, List.drop_left, if_pos digits, value]

/-- A stem and a number give the label that holds them. -/
theorem append_decimal_injective {other : ℕ} (same : stem ++ toString n = stem ++ toString other) :
    n = other := by
  have numbers := numberOf_append stem n
  rw [same, numberOf_append] at numbers
  exact (Option.some.inj numbers).symm

theorem le_foldr_max {numbers : List ℕ} (member : n ∈ numbers) : n ≤ numbers.foldr max 0 := by
  induction numbers with
  | nil => cases member
  | cons first rest ih =>
    rcases List.mem_cons.mp member with rfl | there
    · exact Nat.le_max_left _ _
    · exact Nat.le_trans (ih there) (Nat.le_max_right _ _)

/-- **No label has a higher number than the highest.** -/
theorem le_highest (member : label ∈ labels) (number : numberOf stem label = some n) :
    n ≤ highest stem labels :=
  le_foldr_max (List.mem_filterMap.mpr ⟨label, member, number⟩)

end SuiteCloud.Library
