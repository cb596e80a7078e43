/-
**Time zones.**

A zone has an offset from UTC, which changes at given instants. Its clocks show the instant moved by the
offset; where the offset shrinks they show an hour twice, and a flag, the fold, tells the second pass from the
first. Instants are counted in whole seconds.

* `offsetAt`, `foldAt` — what a zone's clocks show at an instant.
* `offsetOf` — the offset a local time is read with: at the first of two instants, unless it is folded.
* `Apart` — changes lie further apart than they move the clocks.
* `toUtc_toLocal` — **a local time with its fold is one instant**.
* `toUtc_unfolded_iff` — **without it, the instant is found where no earlier one shows the same time**.
-/

import Mathlib.Tactic.Common
import Mathlib.Order.MinMax
import Mathlib.Algebra.Order.Group.Int

namespace SuiteCloud.Library

/-- An offset, and when it comes to hold. -/
structure Change where
  instant : ℤ
  offset : ℤ
  deriving DecidableEq

/-- What the clocks show. -/
structure LocalTime where
  wall : ℤ
  fold : Bool
  deriving DecidableEq

namespace LocalTime

/-- A local time without its fold. -/
def unfolded (time : LocalTime) : LocalTime := { time with fold := false }

@[simp] theorem unfolded_wall (time : LocalTime) : time.unfolded.wall = time.wall := rfl

@[simp] theorem unfolded_fold (time : LocalTime) : time.unfolded.fold = false := rfl

end LocalTime

/-- The offset at an instant, from the one before all changes on. -/
def offsetAt (before : ℤ) : List Change → ℤ → ℤ
  | [], _ => before
  | change :: later, t => if t < change.instant then before else offsetAt change.offset later t

/-- The fold at an instant: whether the clocks were moved back, and show again what they have shown. -/
def foldAt (fold : Bool) (before : ℤ) : List Change → ℤ → Bool
  | [], _ => fold
  | change :: later, t =>
      if t < change.instant then fold
      else foldAt (decide (t - change.instant < before - change.offset)) change.offset later t

/-- The local time from which on a change is taken to hold: the later of what the clocks show as it comes, or,
for folded times, the earlier. -/
def Change.wall (change : Change) (before : ℤ) (fold : Bool) : ℤ :=
  change.instant + if fold then min before change.offset else max before change.offset

/-- The offset a local time is read with. -/
def offsetOf (fold : Bool) (before : ℤ) : List Change → ℤ → ℤ
  | [], _ => before
  | change :: later, wall =>
      if wall < change.wall before fold then before else offsetOf fold change.offset later wall

/-- **The changes lie apart**: what the clocks show twice or not at all at one is over by the next. -/
def Apart (before : ℤ) : List Change → Prop
  | [] => True
  | change :: later =>
      (∀ next ∈ later.head?, change.instant < next.instant
        ∧ change.wall before false ≤ next.wall change.offset true) ∧ Apart change.offset later

/-- **A time zone.** -/
structure TimeZone where
  first : ℤ
  changes : List Change
  apart : Apart first changes

namespace TimeZone

variable (zone : TimeZone)

/-- What the clocks show at an instant. -/
def toLocal (t : ℤ) : LocalTime :=
  ⟨t + offsetAt zone.first zone.changes t, foldAt false zone.first zone.changes t⟩

/-- The instant of a local time. -/
def toUtc (time : LocalTime) : ℤ := time.wall - offsetOf time.fold zone.first zone.changes time.wall

end TimeZone

/-! ### One change -/

section Changes

variable {before t : ℤ} {change next : Change} {later : List Change}

theorem Change.wall_true_le (change : Change) (before : ℤ) :
    change.wall before true ≤ change.wall before false := by
  simp only [Change.wall, if_true, Bool.false_eq_true, if_false]
  omega

theorem Apart.gap (apart : Apart before (change :: next :: later)) :
    change.instant < next.instant ∧ change.wall before false ≤ next.wall change.offset true :=
  apart.1 next rfl

/-- **Once a change has come**, the clocks show no earlier time than it lets them. -/
theorem wall_le_of_passed (apart : Apart before (change :: later)) (passed : change.instant ≤ t) :
    change.wall before true ≤ t + offsetAt change.offset later t := by
  induction later generalizing before change with
  | nil =>
    simp only [Change.wall, if_true, offsetAt]
    omega
  | cons next later ih =>
    rw [offsetAt]
    split_ifs with early
    · simp only [Change.wall, if_true]
      omega
    · have shown := ih apart.2 (not_lt.mp early)
      have gap := apart.gap.2
      have least := change.wall_true_le before
      omega

/-- The fold is that of the last change. -/
theorem foldAt_of_passed (fold fold' : Bool) (passed : ∀ next ∈ later.head?, next.instant ≤ t)
    (some : later ≠ []) : foldAt fold before later t = foldAt fold' before later t := by
  cases later with
  | nil => exact absurd rfl some
  | cons next later =>
    have late : ¬ t < next.instant := not_lt.mpr (passed next rfl)
    rw [foldAt, foldAt, if_neg late, if_neg late]

end Changes

/-! ### Reading a local time -/

section Reading

variable {before t : ℤ} {changes : List Change}

/-- **With its fold**, a local time is read with the offset of its instant. -/
theorem offsetOf_foldAt (apart : Apart before changes) :
    offsetOf (foldAt false before changes t) before changes (t + offsetAt before changes t)
      = offsetAt before changes t := by
  induction changes generalizing before with
  | nil => rfl
  | cons change later ih =>
    rw [offsetAt, foldAt]
    split_ifs with early
    · rw [offsetOf, if_pos]
      simp only [Change.wall, Bool.false_eq_true, if_false]
      omega
    · have passed := not_lt.mp early
      cases later with
      | nil =>
        rw [foldAt, offsetAt, offsetOf, if_neg, offsetOf]
        simp only [Change.wall]
        split_ifs with folded
        · omega
        · have unfolded := of_decide_eq_false (Bool.not_eq_true _ ▸ folded)
          omega
      | cons next later =>
        by_cases come : next.instant ≤ t
        · -- The next change has come: this one is over on all clocks.
          have all : ∀ change ∈ (next :: later).head?, change.instant ≤ t := by
            rintro _ ⟨⟩
            exact come
          rw [foldAt_of_passed _ false all (List.cons_ne_nil _ _)]
          have shown := wall_le_of_passed apart.2 come
          have gap := apart.gap.2
          have same : offsetAt change.offset (next :: later) t = offsetAt next.offset later t := by
            rw [offsetAt, if_neg (not_lt.mpr come)]
          rw [offsetOf, if_neg, ih apart.2]
          have least : ∀ fold, change.wall before fold ≤ change.wall before false := by
            rintro (_ | _)
            · exact le_rfl
            · exact change.wall_true_le before
          have here := least (foldAt false change.offset (next :: later) t)
          omega
        · have here : t < next.instant := not_le.mp come
          have gap := apart.gap.2
          rw [offsetAt, if_pos here, foldAt, if_pos here]
          by_cases folded : t - change.instant < before - change.offset
          · rw [decide_eq_true folded, offsetOf, if_neg, offsetOf, if_pos]
            · simp only [Change.wall, if_true, Bool.false_eq_true, if_false] at gap ⊢
              omega
            · simp only [Change.wall, if_true]
              omega
          · rw [decide_eq_false folded, offsetOf, if_neg, offsetOf, if_pos]
            · simp only [Change.wall, Bool.false_eq_true, if_false]
              omega
            · simp only [Change.wall, Bool.false_eq_true, if_false]
              omega

/-- **Without it**, where the clocks showed that time at no earlier instant, and only there. -/
theorem offsetOf_unfolded_iff (apart : Apart before changes) :
    offsetOf false before changes (t + offsetAt before changes t) = offsetAt before changes t ↔
      ∀ s < t, s + offsetAt before changes s ≠ t + offsetAt before changes t := by
  induction changes generalizing before with
  | nil =>
    refine ⟨fun _ s earlier => ?_, fun _ => rfl⟩
    simp only [offsetAt]
    omega
  | cons change later ih =>
    by_cases early : t < change.instant
    · have offset : ∀ s ≤ t, offsetAt before (change :: later) s = before := fun s upTo => by
        rw [offsetAt, if_pos (lt_of_le_of_lt upTo early)]
      rw [offset t le_rfl, offsetOf, if_pos]
      · refine ⟨fun _ s earlier => ?_, fun _ => rfl⟩
        rw [offset s earlier.le]
        omega
      · simp only [Change.wall, Bool.false_eq_true, if_false]
        omega
    · have passed := not_lt.mp early
      have offset : offsetAt before (change :: later) t = offsetAt change.offset later t := by
        rw [offsetAt, if_neg early]
      have sooner : ∀ s < change.instant, offsetAt before (change :: later) s = before := fun s earlier => by
        rw [offsetAt, if_pos earlier]
      rw [offset, offsetOf]
      split_ifs with repeated
      · -- The clocks have shown the time before they were moved back.
        have here : offsetAt change.offset later t = change.offset := by
          cases later with
          | nil => rfl
          | cons next later =>
            rw [offsetAt, if_pos]
            by_contra come
            have shown := wall_le_of_passed apart.2 (not_lt.mp come)
            rw [offsetAt, if_neg come] at repeated
            have gap := apart.gap.2
            omega
        rw [here] at repeated ⊢
        simp only [Change.wall, Bool.false_eq_true, if_false] at repeated
        constructor
        · intro same
          omega
        · intro none
          refine absurd ?_ (none (t + change.offset - before) (by omega))
          rw [sooner _ (by omega)]
          omega
      · rw [ih apart.2]
        simp only [Change.wall, Bool.false_eq_true, if_false] at repeated
        refine forall₂_congr fun s earlier => not_congr ?_
        by_cases before_ : s < change.instant
        · -- Neither way did the clocks show the time before the change.
          rw [sooner s before_]
          have first : offsetAt change.offset later s = change.offset := by
            cases later with
            | nil => rfl
            | cons next later => rw [offsetAt, if_pos (before_.trans apart.gap.1)]
          rw [first]
          omega
        · rw [offsetAt, if_neg before_]

end Reading

/-! ### There and back -/

namespace TimeZone

variable (zone : TimeZone) (t : ℤ)

/-- **A local time with its fold is one instant.** -/
theorem toUtc_toLocal : zone.toUtc (zone.toLocal t) = t := by
  rw [toUtc, sub_eq_iff_eq_add]
  exact congrArg (t + ·) (offsetOf_foldAt zone.apart).symm

theorem unfolded_wall_toLocal : (zone.toLocal t).unfolded.wall = t + offsetAt zone.first zone.changes t := rfl

/-- **Without its fold**, it is the first instant that the clocks show it at. -/
theorem toUtc_unfolded_iff :
    zone.toUtc (zone.toLocal t).unfolded = t ↔ ∀ s < t, (zone.toLocal s).wall ≠ (zone.toLocal t).wall := by
  have read := offsetOf_unfolded_iff (t := t) zone.apart
  rw [toUtc, sub_eq_iff_eq_add, unfolded_wall_toLocal, add_right_inj, eq_comm]
  exact read

end TimeZone

end SuiteCloud.Library
