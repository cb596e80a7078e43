/-
**Reading a list page by page.**

A source answers with a run of a list that starts at the position asked for, and may answer with fewer
entries than a page holds. The reader asks on from where the answer ended, and takes the first answer
that is shorter than a page for the last one.

* `IsPage` — what an answer is; `readPages` — the reader, with fuel.
* `readPages_isPrefix` — what is read is the beginning of the list.
* `ReadsAll`, `readsAll_iff` — **everything is read** when, and only when, every answer is as long as a
  page or the rest of the list.
-/

import Mathlib.Data.List.Basic

namespace SuiteCloud.Library

variable {α : Type*}

/-- An answer to a request for at most `limit` entries from a position. -/
structure IsPage (all : List α) (limit position : ℕ) (answer : List α) : Prop where
  run : answer <+: all.drop position
  most : answer.length ≤ limit
  progress : position < all.length → 0 < limit → answer ≠ []

/-- **The reader**: `source asked position` is what the source answers after it has answered `asked`
times; `none` where the fuel does not last. -/
def readPages (source : ℕ → ℕ → List α) (size : ℕ) : ℕ → ℕ → ℕ → Option (List α)
  | 0, _, _ => none
  | fuel + 1, asked, position =>
      let answer := source asked position
      if answer.length < size then some answer
      else (readPages source size fuel (asked + 1) (position + answer.length)).map (answer ++ ·)

/-- The reader comes to its end with the whole list. -/
def ReadsAll (source : ℕ → ℕ → List α) (size : ℕ) (all : List α) : Prop :=
  ∃ fuel, readPages source size fuel 0 0 = some all

/-- Every answer of a reading that goes on by whole pages is a page or the rest. -/
def FullPages (source : ℕ → ℕ → List α) (size total : ℕ) : Prop :=
  ∀ k, k * size < total → (source k (k * size)).length = min size (total - k * size)

variable {source : ℕ → ℕ → List α} {size fuel asked position : ℕ} {all result : List α}

/-- **What is read is the beginning of what is left**, so that each entry is read once. -/
theorem readPages_isPrefix
    (pages : ∀ asked position, IsPage all size position (source asked position))
    (read : readPages source size fuel asked position = some result) :
    result <+: all.drop position := by
  induction fuel generalizing asked position result with
  | zero => cases read
  | succ fuel ih =>
    have page := pages asked position
    rw [readPages] at read
    split at read
    · obtain rfl := Option.some.inj read
      exact page.run
    · obtain ⟨rest, later, rfl⟩ := Option.map_eq_some_iff.mp read
      obtain ⟨left, whole⟩ := page.run
      have after := ih later
      rw [← List.drop_drop, ← whole, List.drop_left] at after
      rw [← whole]
      exact (List.prefix_append_right_inj _).mpr after

/-- Pages of no entries have no end. -/
theorem readPages_of_no_size : readPages source 0 fuel asked position = none := by
  induction fuel generalizing asked position with
  | zero => rfl
  | succ fuel ih => rw [readPages, if_neg (Nat.not_lt_zero _), ih, Option.map_none]

/-- Whole pages up to the rest: all that is left is read. -/
theorem readPages_of_fullPages (some_size : 0 < size)
    (pages : ∀ asked position, IsPage all size position (source asked position))
    (full : FullPages source size all.length) (k : ℕ)
    (enough : all.length < (k + fuel) * size) (left : k * size ≤ all.length) :
    readPages source size fuel k (k * size) = some (all.drop (k * size)) := by
  induction fuel generalizing k with
  | zero => exact absurd left (Nat.not_le_of_lt enough)
  | succ fuel ih =>
    have page := pages k (k * size)
    have rest : (all.drop (k * size)).length = all.length - k * size := List.length_drop
    have answered : (source k (k * size)).length = min size (all.length - k * size) := by
      rcases Nat.lt_or_ge (k * size) all.length with before | after
      · exact full k before
      · have none := page.run.length_le
        omega
    rw [readPages]
    split
    · rename_i short
      rw [page.run.eq_of_length (by omega)]
    · have whole : (source k (k * size)).length = size := by omega
      have next : k * size + size = (k + 1) * size := (Nat.succ_mul k size).symm
      rw [whole, next, ih (k + 1) (by rwa [Nat.add_right_comm]) (by omega), Option.map_some, ← next,
        ← List.drop_drop]
      obtain ⟨left, split⟩ := page.run
      rw [← split, List.drop_left' whole]

/-- What is read whole was read in whole pages. -/
theorem fullPages_of_readPages
    (pages : ∀ asked position, IsPage all size position (source asked position)) (k : ℕ)
    (read : readPages source size fuel k (k * size) = some (all.drop (k * size))) :
    ∀ j, k ≤ j → j * size < all.length →
      (source j (j * size)).length = min size (all.length - j * size) := by
  induction fuel generalizing k with
  | zero => cases read
  | succ fuel ih =>
    intro j later before
    have page := pages k (k * size)
    have rest : (all.drop (k * size)).length = all.length - k * size := List.length_drop
    rw [readPages] at read
    split at read
    · rename_i short
      have answer := congrArg List.length (Option.some.inj read)
      -- The answer was the rest, shorter than a page, so that no later page has an entry.
      rcases Nat.eq_or_lt_of_le later with rfl | beyond
      · omega
      · have far : (k + 1) * size ≤ j * size := Nat.mul_le_mul_right size beyond
        rw [Nat.succ_mul] at far
        omega
    · have whole : (source k (k * size)).length = size := by
        have most := page.most
        omega
      have next : k * size + size = (k + 1) * size := (Nat.succ_mul k size).symm
      rcases Nat.eq_or_lt_of_le later with rfl | beyond
      · have within := page.run.length_le
        omega
      · obtain ⟨more, after, joined⟩ := Option.map_eq_some_iff.mp read
        refine ih (k + 1) ?_ j beyond before
        rw [whole, next] at after
        rw [after, ← next, ← List.drop_drop, ← joined, List.drop_left' whole]

/-- **Everything is read**, in pages of some size, when each answer is as long as a page or the rest of
the list, and only then. -/
theorem readsAll_iff
    (pages : ∀ asked position, IsPage all size position (source asked position)) :
    ReadsAll source size all ↔ 0 < size ∧ FullPages source size all.length := by
  constructor
  · rintro ⟨fuel, read⟩
    refine ⟨Nat.pos_of_ne_zero ?_, fun k => ?_⟩
    · rintro rfl
      rw [readPages_of_no_size] at read
      cases read
    · have read : readPages source size fuel 0 (0 * size) = some (all.drop (0 * size)) := by
        rw [Nat.zero_mul]
        exact read
      exact fullPages_of_readPages pages 0 read k (Nat.zero_le k)
  · rintro ⟨some_size, full⟩
    have enough : all.length < (0 + (all.length + 1)) * size := by
      rw [Nat.zero_add]
      exact Nat.lt_of_lt_of_le (Nat.lt_succ_self _) (Nat.le_mul_of_pos_right _ some_size)
    have read := readPages_of_fullPages some_size pages full 0 enough (by
      rw [Nat.zero_mul]
      exact Nat.zero_le _)
    rw [Nat.zero_mul] at read
    exact ⟨_, read⟩

end SuiteCloud.Library
