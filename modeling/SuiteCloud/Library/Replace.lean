/-
**Python's `str.replace`.**

Over any alphabet: the occurrences of a text are found from the left and do not overlap.

* `replace` — the text with each occurrence replaced.
* `infix_of_infix_replace` — **nothing new arises**: what stands in the result and has no mark stood in the
  text, where marks are put in.
* `not_infix_replace` — **nothing is left** of what is replaced.
* `replaceAll`, `not_infix_replaceAll` — texts replaced one after the other, whatever their overlaps.
-/

import Mathlib.Data.List.Infix

namespace SuiteCloud.Library

variable {α : Type*} [DecidableEq α]

/-- The replaced text, past the characters to skip, which a found occurrence has still to cover. -/
def replaceFrom (old new : List α) : ℕ → List α → List α
  | _, [] => []
  | skip + 1, _ :: rest => replaceFrom old new skip rest
  | 0, c :: rest =>
      if old <+: c :: rest then new ++ replaceFrom old new (old.length - 1) rest
      else c :: replaceFrom old new 0 rest

/-- **`text.replace(old, new)`**: an empty text is found around every character. -/
def replace (old new text : List α) : List α :=
  if old = [] then new ++ text.flatMap (· :: new) else replaceFrom old new 0 text

/-- **Texts replaced one after the other.** -/
def replaceAll (olds : List (List α)) (new text : List α) : List α :=
  olds.foldl (fun text old => replace old new text) text

section Marks

variable {old new piece text : List α} {mark : α}

omit [DecidableEq α] in
/-- Behind marks, what has none. -/
theorem infix_of_infix_marks (marks : ∀ c ∈ new, c = mark) (plain : mark ∉ piece)
    (there : piece <:+: new ++ text) : piece <:+: text := by
  induction new with
  | nil => exact there
  | cons c new ih =>
    obtain ⟨first, later⟩ := List.forall_mem_cons.mp marks
    rcases List.infix_cons_iff.mp there with starts | behind
    · cases piece with
      | nil => exact List.nil_infix
      | cons head piece =>
        obtain ⟨same, -⟩ := List.cons_prefix_cons.mp starts
        exact absurd (same.trans first ▸ List.mem_cons_self) plain
    · exact ih later behind

/-- What the result begins with, the text does, unless it has a mark. -/
theorem prefix_of_prefix_replaceFrom (marks : ∀ c ∈ new, c = mark) (some : new ≠ []) (plain : mark ∉ piece)
    (starts : piece <+: replaceFrom old new 0 text) : piece <+: text := by
  induction text generalizing piece with
  | nil => exact starts
  | cons c rest ih =>
    cases piece with
    | nil => exact List.nil_prefix
    | cons head piece =>
      rw [replaceFrom] at starts
      split at starts
      · obtain ⟨first, new, rfl⟩ := List.exists_cons_of_ne_nil some
        obtain ⟨same, -⟩ := List.cons_prefix_cons.mp starts
        exact absurd (same.trans (marks first List.mem_cons_self) ▸ List.mem_cons_self) plain
      · obtain ⟨same, behind⟩ := List.cons_prefix_cons.mp starts
        exact List.cons_prefix_cons.mpr ⟨same, ih (fun member => plain (List.mem_cons_of_mem _ member)) behind⟩

theorem infix_of_infix_replaceFrom (marks : ∀ c ∈ new, c = mark) (some : new ≠ []) (plain : mark ∉ piece)
    {skip : ℕ} (there : piece <:+: replaceFrom old new skip text) : piece <:+: text := by
  induction text generalizing skip with
  | nil => cases skip <;> exact there
  | cons c rest ih =>
    cases skip with
    | succ skip => exact List.infix_cons (ih there)
    | zero =>
      by_cases found : old <+: c :: rest
      · rw [replaceFrom, if_pos found] at there
        exact List.infix_cons (ih (infix_of_infix_marks marks plain there))
      · have same : replaceFrom old new 0 (c :: rest) = c :: replaceFrom old new 0 rest := if_neg found
        rcases List.infix_cons_iff.mp (same ▸ there) with starts | behind
        · exact (prefix_of_prefix_replaceFrom marks some plain (same ▸ starts)).isInfix
        · exact List.infix_cons (ih behind)

theorem not_infix_replaceFrom (marks : ∀ c ∈ new, c = mark) (some : new ≠ []) (plain : mark ∉ old)
    (written : old ≠ []) {skip : ℕ} : ¬ old <:+: replaceFrom old new skip text := by
  induction text generalizing skip with
  | nil =>
    have empty : ¬ old <:+: [] := fun there => written (List.infix_nil.mp there)
    cases skip <;> exact empty
  | cons c rest ih =>
    intro there
    cases skip with
    | succ skip => exact ih there
    | zero =>
      by_cases found : old <+: c :: rest
      · rw [replaceFrom, if_pos found] at there
        exact ih (infix_of_infix_marks marks plain there)
      · have same : replaceFrom old new 0 (c :: rest) = c :: replaceFrom old new 0 rest := if_neg found
        rcases List.infix_cons_iff.mp (same ▸ there) with starts | behind
        · exact found (prefix_of_prefix_replaceFrom marks some plain (same ▸ starts))
        · exact ih behind

theorem replace_eq (written : old ≠ []) : replace old new text = replaceFrom old new 0 text := if_neg written

variable (marks : ∀ c ∈ new, c = mark) (some : new ≠ [])
include marks some

/-- **Nothing new arises**: what stands in the result and has no mark stood in the text. -/
theorem infix_of_infix_replace (plain : mark ∉ piece) (written : old ≠ [])
    (there : piece <:+: replace old new text) : piece <:+: text :=
  infix_of_infix_replaceFrom marks some plain (replace_eq written ▸ there)

/-- **Nothing is left** of what is replaced. -/
theorem not_infix_replace (plain : mark ∉ old) (written : old ≠ []) : ¬ old <:+: replace old new text := fun there =>
  not_infix_replaceFrom marks some plain written (replace_eq written ▸ there)

theorem infix_of_infix_replaceAll {olds : List (List α)} (plain : mark ∉ piece) (written : ∀ old ∈ olds, old ≠ [])
    (there : piece <:+: replaceAll olds new text) : piece <:+: text := by
  induction olds generalizing text with
  | nil => exact there
  | cons old olds ih =>
    obtain ⟨first, later⟩ := List.forall_mem_cons.mp written
    exact infix_of_infix_replace marks some plain first (ih later there)

/-- **None is left** of texts replaced one after the other: each is gone in its turn, and none of the later
replacements brings it back. -/
theorem not_infix_replaceAll {olds : List (List α)} (plain : ∀ old ∈ olds, mark ∉ old)
    (written : ∀ old ∈ olds, old ≠ []) (member : old ∈ olds) : ¬ old <:+: replaceAll olds new text := by
  induction olds generalizing text with
  | nil => exact absurd member List.not_mem_nil
  | cons first olds ih =>
    obtain ⟨plainFirst, plainLater⟩ := List.forall_mem_cons.mp plain
    obtain ⟨writtenFirst, writtenLater⟩ := List.forall_mem_cons.mp written
    rcases List.mem_cons.mp member with rfl | later
    · exact fun there => not_infix_replace marks some plainFirst writtenFirst
        (infix_of_infix_replaceAll marks some plainFirst writtenLater there)
    · exact ih plainLater writtenLater later

end Marks

end SuiteCloud.Library
