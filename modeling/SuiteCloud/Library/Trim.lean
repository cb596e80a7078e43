/-
**What a strip takes off.**

Which characters go is a test. A strip leaves the core of a text: what stands between the characters it
takes off, which neither begins nor ends in one.

* `RStrips`, `rstripOf_eq_iff` — the text is its core and then such characters.
* `Strips`, `stripOf_eq_iff` — the text is its core between such characters.
* `stripOf_between` — a text between two of them.
* `countP_stripOf`, `countP_strip_lt` — how many characters of another kind are left, and of its own.
-/

import Mathlib.Data.List.TakeWhile
import SuiteCloud.Library.Text

namespace SuiteCloud.Library

variable {dropped counted : Char → Bool} {text core : String}

/-- The text is its core and characters that are dropped. -/
def RStrips (dropped : Char → Bool) (text core : String) : Prop :=
  ∃ after : List Char, (∀ c ∈ after, dropped c = true) ∧ text.toList = core.toList ++ after ∧
    ∀ c ∈ core.toList.getLast?, dropped c = false

/-- The text is its core between characters that are dropped. -/
def Strips (dropped : Char → Bool) (text core : String) : Prop :=
  ∃ before after : List Char, (∀ c ∈ before, dropped c = true) ∧ (∀ c ∈ after, dropped c = true) ∧
    text.toList = before ++ core.toList ++ after ∧ (∀ c ∈ core.toList.head?, dropped c = false) ∧
      ∀ c ∈ core.toList.getLast?, dropped c = false

theorem dropWhile_all {before : List Char} (all : ∀ c ∈ before, dropped c = true) (rest : List Char) :
    (before ++ rest).dropWhile dropped = rest.dropWhile dropped := List.dropWhile_append_of_pos all

theorem dropWhile_head {rest : List Char} (first : ∀ c ∈ rest.head?, dropped c = false) :
    rest.dropWhile dropped = rest := by
  cases rest with
  | nil => rfl
  | cons c rest => exact List.dropWhile_cons_of_neg (by simp [first c rfl])

theorem rstrips (dropped : Char → Bool) (text : String) : RStrips dropped text (rstripOf dropped text) := by
  refine ⟨(text.toList.reverse.takeWhile dropped).reverse, ?_, ?_, ?_⟩
  · exact fun c member => List.mem_takeWhile_imp (List.mem_reverse.mp member)
  · rw [rstripOf, String.toList_ofList, ← List.reverse_append, List.takeWhile_append_dropWhile,
      List.reverse_reverse]
  · intro c last
    rw [rstripOf, String.toList_ofList, List.getLast?_reverse] at last
    have stops := List.head?_dropWhile_not dropped text.toList.reverse
    rw [Option.mem_def.mp last] at stops
    exact stops

/-- **What `rstrip` leaves** is the core of a text. -/
theorem rstripOf_eq_iff : rstripOf dropped text = core ↔ RStrips dropped text core := by
  constructor
  · rintro rfl
    exact rstrips dropped text
  · rintro ⟨after, all, whole, last⟩
    have backwards : text.toList.reverse.dropWhile dropped = core.toList.reverse := by
      rw [whole, List.reverse_append, dropWhile_all fun c member => all c (List.mem_reverse.mp member)]
      refine dropWhile_head fun c first => last c ?_
      rwa [List.head?_reverse] at first
    rw [rstripOf, backwards, List.reverse_reverse, String.ofList_toList]

theorem strips (dropped : Char → Bool) (text : String) : Strips dropped text (stripOf dropped text) := by
  obtain ⟨after, all, whole, last⟩ := rstrips dropped (String.ofList (text.toList.dropWhile dropped))
  rw [String.toList_ofList] at whole
  refine ⟨text.toList.takeWhile dropped, after, fun c => List.mem_takeWhile_imp, all, ?_, ?_, last⟩
  · rw [stripOf, List.append_assoc, ← whole, List.takeWhile_append_dropWhile]
  · intro c first
    have stops := List.head?_dropWhile_not dropped text.toList
    rw [stripOf] at first
    rw [whole, List.head?_append, Option.mem_def.mp first] at stops
    exact stops

/-- **What `strip` leaves** is the core of a text. -/
theorem stripOf_eq_iff : stripOf dropped text = core ↔ Strips dropped text core := by
  constructor
  · rintro rfl
    exact strips dropped text
  · rintro ⟨before, after, all, all', whole, first, last⟩
    rw [stripOf, rstripOf_eq_iff]
    cases chars : core.toList with
    | nil =>
      have none : text.toList.dropWhile dropped = [] := by
        rw [whole, chars, List.append_nil, List.dropWhile_eq_nil_iff]
        exact List.forall_mem_append.mpr ⟨all, all'⟩
      refine ⟨[], List.forall_mem_nil _, ?_, last⟩
      rw [none, chars]
      rfl
    | cons c rest =>
      refine ⟨after, all', ?_, last⟩
      rw [String.toList_ofList, whole, List.append_assoc, dropWhile_all all]
      refine dropWhile_head fun d begins => first d ?_
      rw [chars] at begins ⊢
      exact begins

/-- A text between two characters that are dropped. -/
theorem stripOf_between {text : String} {c d : Char} (drops : dropped c = true) (drops' : dropped d = true) :
    stripOf dropped (String.ofList (c :: text.toList ++ [d])) = stripOf dropped text := by
  obtain ⟨before, after, all, all', whole, ends⟩ := strips dropped text
  refine stripOf_eq_iff.mpr ⟨c :: before, after ++ [d], ?_, ?_, ?_, ends⟩
  · exact List.forall_mem_cons.mpr ⟨drops, all⟩
  · exact List.forall_mem_append.mpr ⟨all', List.forall_mem_singleton.mpr drops'⟩
  · rw [String.toList_ofList, whole]
    simp only [List.cons_append, List.append_assoc]

theorem countP_eq_zero_of_apart (apart : ∀ c, dropped c = true → counted c = false) {chars : List Char}
    (all : ∀ c ∈ chars, dropped c = true) : chars.countP counted = 0 :=
  List.countP_eq_zero.mpr fun c member => by simp [apart c (all c member)]

/-- How many characters of another kind `rstrip` leaves. -/
theorem countP_rstripOf (apart : ∀ c, dropped c = true → counted c = false) :
    (rstripOf dropped text).toList.countP counted = text.toList.countP counted := by
  obtain ⟨after, all, whole, -⟩ := rstrips dropped text
  rw [whole, List.countP_append, countP_eq_zero_of_apart apart all, Nat.add_zero]

/-- How many characters of another kind `strip` leaves. -/
theorem countP_stripOf (apart : ∀ c, dropped c = true → counted c = false) :
    (stripOf dropped text).toList.countP counted = text.toList.countP counted := by
  obtain ⟨before, after, all, all', whole, -⟩ := strips dropped text
  rw [whole, List.countP_append, List.countP_append, countP_eq_zero_of_apart apart all,
    countP_eq_zero_of_apart apart all', Nat.zero_add, Nat.add_zero]

/-- **A text with characters to strip** holds more of them than what is left of it. -/
theorem countP_stripOf_lt (other : stripOf dropped text ≠ text) :
    (stripOf dropped text).toList.countP dropped < text.toList.countP dropped := by
  obtain ⟨before, after, all, all', whole, -⟩ := strips dropped text
  have some : 0 < before.length + after.length := by
    by_contra none
    have left : before = [] := List.eq_nil_of_length_eq_zero (by omega)
    have right : after = [] := List.eq_nil_of_length_eq_zero (by omega)
    rw [left, right, List.nil_append, List.append_nil] at whole
    exact other (String.toList_inj.mp whole).symm
  rw [whole, List.countP_append, List.countP_append, List.countP_eq_length.mpr all,
    List.countP_eq_length.mpr all']
  omega

theorem countP_stripOf_le : (stripOf dropped text).toList.countP counted ≤ text.toList.countP counted := by
  obtain ⟨before, after, -, -, whole, -⟩ := strips dropped text
  rw [whole, List.countP_append, List.countP_append]
  omega

end SuiteCloud.Library
