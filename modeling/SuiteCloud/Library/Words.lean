/-
**The words of a text.**

`str.split()` gives the words of a text, whatever white space stands between them. Fields with gaps between
them make many texts; their words are the same.

* `wordsOf` — `str.split()`; `wordsOf_append_space` — a text is split at any white space in it.
* `squeeze` — the words with single spaces between them; `IsTight` — a text that is its own.
* `Spaced` — fields with gaps between them; `wordsOf_spaced`, `squeeze_fields`.
-/

import SuiteCloud.Library.Text

namespace SuiteCloud.Library

variable {text rest : List Char} {c : Char}

/-- The words of a text, the first of which has begun. -/
def wordsFrom (word : List Char) : List Char → List (List Char)
  | [] => if word = [] then [] else [word]
  | c :: rest =>
      if isSpace c then if word = [] then wordsFrom [] rest else word :: wordsFrom [] rest
      else wordsFrom (word ++ [c]) rest

/-- **`str.split()`.** -/
def wordsOf (text : List Char) : List (List Char) := wordsFrom [] text

/-- The words of a text, with single spaces between them. -/
def squeeze (text : List Char) : List Char := [' '].intercalate (wordsOf text)

/-- A text with no white space at its ends, and single spaces inside. -/
def IsTight (text : List Char) : Prop := text ≠ [] ∧ squeeze text = text

instance (text : List Char) : Decidable (IsTight text) := inferInstanceAs (Decidable (_ ∧ _))

/-- **Fields with gaps between them.** -/
inductive Spaced (isGap : List Char → Prop) : List (List Char) → List Char → Prop
  | one (field : List Char) : Spaced isGap [field] field
  | cons (field gap : List Char) {fields : List (List Char)} {text : List Char} (gaps : isGap gap)
      (later : Spaced isGap fields text) : Spaced isGap (field :: fields) (field ++ gap ++ text)

/-- A gap: white space, at least one character of it. -/
def IsGap (gap : List Char) : Prop := gap ≠ [] ∧ ∀ c ∈ gap, isSpace c = true

/-! ### Splitting -/

/-- **A text is split at any white space in it.** -/
theorem wordsFrom_append_space {word : List Char} (space : isSpace c = true) :
    wordsFrom word (text ++ c :: rest) = wordsFrom word text ++ wordsOf rest := by
  induction text generalizing word with
  | nil =>
    show (if isSpace c then if word = [] then wordsFrom [] rest else word :: wordsFrom [] rest else _)
      = (if word = [] then [] else [word]) ++ wordsFrom [] rest
    rw [if_pos space]
    split
    · rfl
    · rfl
  | cons d text ih =>
    rw [List.cons_append, wordsFrom, wordsFrom]
    split
    · split
      · exact ih
      · rw [ih, List.cons_append]
    · exact ih

theorem wordsOf_append_space (space : isSpace c = true) :
    wordsOf (text ++ c :: rest) = wordsOf text ++ wordsOf rest := wordsFrom_append_space space

theorem wordsOf_cons_space (space : isSpace c = true) : wordsOf (c :: rest) = wordsOf rest := if_pos space

/-- White space has no words. -/
theorem wordsOf_gap {gap : List Char} (spaces : ∀ c ∈ gap, isSpace c = true) (rest : List Char) :
    wordsOf (gap ++ rest) = wordsOf rest := by
  induction gap with
  | nil => rfl
  | cons c gap ih =>
    obtain ⟨first, later⟩ := List.forall_mem_cons.mp spaces
    rw [List.cons_append, wordsOf_cons_space first, ih later]

theorem wordsOf_append_gap {gap : List Char} (isGap : IsGap gap) :
    wordsOf (text ++ gap ++ rest) = wordsOf text ++ wordsOf rest := by
  obtain ⟨some, spaces⟩ := isGap
  cases gap with
  | nil => exact absurd rfl some
  | cons c gap =>
    obtain ⟨first, later⟩ := List.forall_mem_cons.mp spaces
    rw [List.append_assoc, List.cons_append, wordsOf_append_space first, wordsOf_gap later]

theorem wordsOf_append_spaces {gap : List Char} (spaces : ∀ c ∈ gap, isSpace c = true) :
    wordsOf (text ++ gap) = wordsOf text := by
  cases gap with
  | nil => rw [List.append_nil]
  | cons c gap =>
    obtain ⟨first, later⟩ := List.forall_mem_cons.mp spaces
    have none : wordsOf gap = [] := by
      rw [← List.append_nil gap, wordsOf_gap later]
      rfl
    rw [wordsOf_append_space first, none, List.append_nil]

theorem wordsFrom_plain {word : List Char} (plain : ∀ c ∈ text, isSpace c = false) :
    wordsFrom word text = if word ++ text = [] then [] else [word ++ text] := by
  induction text generalizing word with
  | nil => rw [wordsFrom, List.append_nil]
  | cons c text ih =>
    obtain ⟨first, later⟩ := List.forall_mem_cons.mp plain
    rw [wordsFrom, if_neg (by simp [first]), ih later, List.append_assoc, List.singleton_append]

/-- A word. -/
theorem wordsOf_word (some : text ≠ []) (plain : ∀ c ∈ text, isSpace c = false) : wordsOf text = [text] := by
  rw [wordsOf, wordsFrom_plain plain, List.nil_append, if_neg some]

/-- The parts of a text that is split have none of its separators. -/
theorem not_of_mem_splitOnP {α : Type*} {p : α → Bool} {text part : List α} (member : part ∈ text.splitOnP p) :
    ∀ c ∈ part, p c = false := by
  induction text generalizing part with
  | nil =>
    rw [List.splitOnP_nil, List.mem_singleton] at member
    subst member
    exact fun c among => absurd among List.not_mem_nil
  | cons first rest ih =>
    rw [List.splitOnP_cons_eq_if_modifyHead] at member
    split_ifs at member with separates
    · obtain rfl | later := List.mem_cons.mp member
      · exact fun c among => absurd among List.not_mem_nil
      · exact ih later
    · cases parts : rest.splitOnP p with
      | nil => exact absurd parts (List.splitOnP_ne_nil _ _)
      | cons head others =>
        rw [parts] at member ih
        rw [List.modifyHead_cons, List.mem_cons] at member
        obtain rfl | later := member
        · refine List.forall_mem_cons.mpr ⟨by simpa using separates, ih List.mem_cons_self⟩
        · exact ih (List.mem_cons_of_mem _ later)

/-! ### Joining -/

theorem intercalate_append {α : Type*} {separator : List α} {first second : List (List α)} (some : first ≠ [])
    (more : second ≠ []) : separator.intercalate (first ++ second)
      = separator.intercalate first ++ separator ++ separator.intercalate second := by
  induction first with
  | nil => exact absurd rfl some
  | cons word rest ih =>
    cases rest with
    | nil => rw [List.singleton_append, List.intercalate_cons_of_ne_nil more, List.intercalate_singleton]
    | cons next rest =>
      rw [List.cons_append, List.cons_append, List.intercalate_cons_cons, ← List.cons_append,
        ih (List.cons_ne_nil _ _), List.intercalate_cons_cons]
      simp only [List.append_assoc]

/-- What is joined is in the whole. -/
theorem mem_intercalate {α : Type*} {separator part : List α} {parts : List (List α)} (there : part ∈ parts)
    {a : α} (member : a ∈ part) : a ∈ separator.intercalate parts := by
  induction parts with
  | nil => exact absurd there List.not_mem_nil
  | cons first rest ih =>
    cases rest with
    | nil =>
      rw [List.intercalate_singleton, ← List.mem_singleton.mp there]
      exact member
    | cons next rest =>
      rw [List.intercalate_cons_cons]
      obtain rfl | later := List.mem_cons.mp there
      · exact List.mem_append_left _ (List.mem_append_left _ member)
      · exact List.mem_append_right _ (ih later)

theorem IsTight.words (tight : IsTight text) : wordsOf text ≠ [] := by
  intro none
  have empty : squeeze text = [] := by
    rw [squeeze, none, List.intercalate_nil]
  exact tight.1 (tight.2.symm.trans empty)

theorem isTight_word (some : text ≠ []) (plain : ∀ c ∈ text, isSpace c = false) : IsTight text :=
  ⟨some, by rw [squeeze, wordsOf_word some plain, List.intercalate_singleton]⟩

/-- **Tight fields are squeezed to themselves**, with single spaces between them. -/
theorem squeeze_fields {fields : List (List Char)} (tight : ∀ field ∈ fields, IsTight field) :
    [' '].intercalate (fields.flatMap wordsOf) = [' '].intercalate fields := by
  induction fields with
  | nil => rfl
  | cons field fields ih =>
    obtain ⟨first, later⟩ := List.forall_mem_cons.mp tight
    cases fields with
    | nil =>
      rw [List.flatMap_singleton, List.intercalate_singleton]
      exact first.2
    | cons next fields =>
      have more : (next :: fields).flatMap wordsOf ≠ [] := by
        rw [List.flatMap_cons]
        exact List.append_ne_nil_of_left_ne_nil (later next List.mem_cons_self).words _
      have same : [' '].intercalate (wordsOf field) = field := first.2
      rw [List.flatMap_cons, intercalate_append first.words more, ih later, same, List.intercalate_cons_cons]

/-- Fields joined by single spaces are spaced. -/
theorem spaced_intercalate {isGap : List Char → Prop} {fields : List (List Char)} (some : fields ≠ [])
    (gap : isGap [' ']) : Spaced isGap fields ([' '].intercalate fields) := by
  induction fields with
  | nil => exact absurd rfl some
  | cons field fields ih =>
    cases fields with
    | nil => exact List.intercalate_singleton ▸ .one field
    | cons next fields =>
      rw [List.intercalate_cons_cons]
      exact .cons field [' '] gap (ih (List.cons_ne_nil _ _))

/-- The first field, and what follows its gap. -/
theorem spaced_cons {isGap : List Char → Prop} {field : List Char} {fields : List (List Char)} (some : fields ≠ [])
    (spaced : Spaced isGap (field :: fields) text) :
    ∃ gap later, isGap gap ∧ Spaced isGap fields later ∧ text = field ++ gap ++ later := by
  cases spaced with
  | one => exact absurd rfl some
  | cons _ gap isGap later => exact ⟨gap, _, isGap, later, rfl⟩

theorem spaced_singleton {isGap : List Char → Prop} {field : List Char} (spaced : Spaced isGap [field] text) :
    text = field := by
  cases spaced with
  | one => rfl
  | cons _ gap isGap later => cases later

/-- **The words of spaced fields** are those of the fields. -/
theorem wordsOf_spaced {isGap : List Char → Prop} {fields : List (List Char)}
    (gaps : ∀ gap, isGap gap → IsGap gap) (spaced : Spaced isGap fields text) :
    wordsOf text = fields.flatMap wordsOf := by
  induction spaced with
  | one field => rw [List.flatMap_singleton]
  | cons field gap isGap later ih => rw [wordsOf_append_gap (gaps gap isGap), ih, List.flatMap_cons]

end SuiteCloud.Library
