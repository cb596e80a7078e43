/-
**What is inside quotes.**

`_strip_comment`, `_paren_balance` and `_drop_parens` count quotes, escaped or not. A character is sheltered
where the count has it inside a string.

* `flagAfter` — where the count ends; `Sheltered` — some characters are met inside strings only.
* `stripCommentFrom_append`, `parenBalanceFrom_append`, `withoutParensFrom_append` — the three, part by part.
* `stripped_append` — what `str.strip` leaves; `exists_stripped`.
-/

import SuiteCloud.Library.Trim
import SuiteCloud.Mail.Cluster.Zone.Model

namespace SuiteCloud.Mail.Cluster.Zone

open SuiteCloud.Library

variable {quoted : Bool} {special text rest gap : List Char} {c : Char}

/-- The flag after a character. -/
def flagNext (quoted : Bool) (c : Char) : Bool := if c = '"' then !quoted else quoted

/-- **Where counting the quotes of a text ends.** -/
def flagAfter (quoted : Bool) (text : List Char) : Bool := text.foldl flagNext quoted

/-- **Some characters stand inside strings only**, as the quotes are counted. -/
def Sheltered (special : List Char) (quoted : Bool) : List Char → Prop
  | [] => True
  | c :: rest => (c ∈ special → quoted = true) ∧ Sheltered special (flagNext quoted c) rest

instance decidableSheltered (special : List Char) (quoted : Bool) :
    (text : List Char) → Decidable (Sheltered special quoted text)
  | [] => .isTrue trivial
  | c :: rest =>
      have := decidableSheltered special (flagNext quoted c) rest
      inferInstanceAs (Decidable ((c ∈ special → quoted = true) ∧ Sheltered special (flagNext quoted c) rest))

/-- Spaces and tabs. -/
def IsBlanks (gap : List Char) : Prop := ∀ c ∈ gap, c = ' ' ∨ c = '\t'

/-- A gap between two fields. -/
def IsBlank (gap : List Char) : Prop := gap ≠ [] ∧ IsBlanks gap

instance (gap : List Char) : Decidable (IsBlanks gap) := List.decidableBAll _ gap

instance (gap : List Char) : Decidable (IsBlank gap) := inferInstanceAs (Decidable (_ ∧ _))

/-! ### The count -/

theorem flagAfter_append (text rest : List Char) :
    flagAfter quoted (text ++ rest) = flagAfter (flagAfter quoted text) rest := List.foldl_append

theorem flagAfter_plain (plain : '"' ∉ text) : flagAfter quoted text = quoted := by
  induction text with
  | nil => rfl
  | cons c text ih =>
    obtain ⟨first, later⟩ := not_or.mp (mt List.mem_cons.mpr plain)
    have same : flagNext quoted c = quoted := if_neg (Ne.symm first)
    show flagAfter (flagNext quoted c) text = quoted
    rw [same, ih later]

theorem sheltered_append :
    Sheltered special quoted (text ++ rest) ↔
      Sheltered special quoted text ∧ Sheltered special (flagAfter quoted text) rest := by
  induction text generalizing quoted with
  | nil => exact ⟨fun sheltered => ⟨trivial, sheltered⟩, And.right⟩
  | cons c text ih =>
    show (_ ∧ Sheltered special (flagNext quoted c) (text ++ rest)) ↔ (_ ∧ _) ∧ _
    rw [ih, and_assoc]
    rfl

theorem sheltered_plain (plain : ∀ c ∈ text, c ∉ special) : Sheltered special quoted text := by
  induction text generalizing quoted with
  | nil => trivial
  | cons c text ih =>
    obtain ⟨first, later⟩ := List.forall_mem_cons.mp plain
    exact ⟨fun member => absurd member first, ih later⟩

/-! ### The three readers -/

theorem stripCommentFrom_append (sheltered : Sheltered [';'] quoted text) (rest : List Char) :
    stripCommentFrom quoted (text ++ rest) = text ++ stripCommentFrom (flagAfter quoted text) rest := by
  induction text generalizing quoted with
  | nil => rfl
  | cons c text ih =>
    obtain ⟨inside, later⟩ := sheltered
    rw [List.cons_append, List.cons_append]
    show stripCommentFrom quoted (c :: (text ++ rest))
      = c :: (text ++ stripCommentFrom (flagAfter (flagNext quoted c) text) rest)
    rw [← ih later, stripCommentFrom, flagNext]
    by_cases quote : c = '"'
    · rw [if_pos quote, if_pos quote]
    · have kept : ¬ (c = ';' ∧ quoted = false) := by
        rintro ⟨rfl, outside⟩
        exact absurd (inside List.mem_cons_self) (by simp [outside])
      rw [if_neg quote, if_neg quote, if_neg kept]

theorem stripCommentFrom_comment {comment : List Char} (begins : comment = [] ∨ comment.head? = some ';')
    (outside : comment ≠ [] → quoted = false) : stripCommentFrom quoted comment = [] := by
  cases comment with
  | nil => rfl
  | cons c rest =>
    obtain rfl : c = ';' := Option.some.inj (begins.resolve_left (List.cons_ne_nil _ _))
    have semicolon : (';' : Char) ≠ '"' := by decide
    rw [stripCommentFrom, if_neg semicolon, if_pos ⟨rfl, outside (List.cons_ne_nil _ _)⟩]

theorem parenBalanceFrom_append (text rest : List Char) :
    parenBalanceFrom quoted (text ++ rest)
      = parenBalanceFrom quoted text + parenBalanceFrom (flagAfter quoted text) rest := by
  induction text generalizing quoted with
  | nil => exact (Int.zero_add _).symm
  | cons c text ih =>
    show parenBalanceFrom quoted (c :: (text ++ rest))
      = parenBalanceFrom quoted (c :: text) + parenBalanceFrom (flagAfter (flagNext quoted c) text) rest
    rw [parenBalanceFrom, parenBalanceFrom, flagNext]
    by_cases quote : c = '"'
    · rw [if_pos quote, if_pos quote, if_pos quote, ih]
    · rw [if_neg quote, if_neg quote, if_neg quote]
      split
      · rw [ih]
        omega
      · split
        · rw [ih]
          omega
        · rw [ih]

theorem parenBalanceFrom_sheltered (sheltered : Sheltered ['(', ')'] quoted text) :
    parenBalanceFrom quoted text = 0 := by
  induction text generalizing quoted with
  | nil => rfl
  | cons c text ih =>
    obtain ⟨inside, later⟩ := sheltered
    have here := ih later
    rw [flagNext] at here
    rw [parenBalanceFrom]
    by_cases quote : c = '"'
    · rw [if_pos quote]
      rwa [if_pos quote] at here
    · rw [if_neg quote] at here ⊢
      have opens : ¬ (quoted = false ∧ c = '(') := by
        rintro ⟨outside, rfl⟩
        exact absurd (inside List.mem_cons_self) (by simp [outside])
      have closes : ¬ (quoted = false ∧ c = ')') := by
        rintro ⟨outside, rfl⟩
        exact absurd (inside (List.mem_cons_of_mem _ List.mem_cons_self)) (by simp [outside])
      rw [if_neg opens, if_neg closes, here]

theorem parenBalanceFrom_nonpos (free : '(' ∉ text) : parenBalanceFrom quoted text ≤ 0 := by
  induction text generalizing quoted with
  | nil => exact Int.le_refl 0
  | cons c text ih =>
    obtain ⟨first, later⟩ := not_or.mp (mt List.mem_cons.mpr free)
    have opens : ¬ (quoted = false ∧ c = '(') := fun both => first both.2.symm
    rw [parenBalanceFrom, if_neg opens]
    split
    · exact ih later
    · have below : parenBalanceFrom quoted text ≤ 0 := ih later
      split
      · omega
      · exact below

theorem withoutParensFrom_append (text rest : List Char) :
    withoutParensFrom quoted (text ++ rest)
      = withoutParensFrom quoted text ++ withoutParensFrom (flagAfter quoted text) rest := by
  induction text generalizing quoted with
  | nil => rfl
  | cons c text ih =>
    show withoutParensFrom quoted (c :: (text ++ rest))
      = withoutParensFrom quoted (c :: text) ++ withoutParensFrom (flagAfter (flagNext quoted c) text) rest
    have more : withoutParensFrom (flagNext quoted c) (text ++ rest) = _ := ih
    simp only [withoutParensFrom]
    rw [← flagNext]
    split
    · rw [more, List.cons_append]
    · rw [more]

theorem withoutParensFrom_sheltered (sheltered : Sheltered ['(', ')'] quoted text) :
    withoutParensFrom quoted text = text := by
  induction text generalizing quoted with
  | nil => rfl
  | cons c text ih =>
    obtain ⟨inside, later⟩ := sheltered
    have kept : flagNext quoted c = true ∨ (c ≠ '(' ∧ c ≠ ')') := by
      by_cases special : c ∈ ['(', ')']
      · refine Or.inl ?_
        have plain : c ≠ '"' := by
          rintro rfl
          exact absurd special (by decide)
        rw [flagNext, if_neg plain, inside special]
      · simp only [List.mem_cons, List.not_mem_nil, or_false, not_or] at special
        exact Or.inr special
    simp only [withoutParensFrom]
    rw [← flagNext, if_pos kept, ih later]

/-! ### Blanks -/

theorem IsBlanks.spaces (blanks : IsBlanks gap) : ∀ c ∈ gap, isSpace c = true := by
  intro c member
  rcases blanks c member with rfl | rfl
  · decide
  · decide

theorem IsBlank.isGap (blank : IsBlank gap) : IsGap gap := ⟨blank.1, blank.2.spaces⟩

theorem isBlank_space : IsBlank [' '] :=
  ⟨List.cons_ne_nil _ _, fun _ member => Or.inl (List.mem_singleton.mp member)⟩

theorem not_space_special (space : isSpace c = true) : c ∉ ['"', ';', '(', ')'] := by
  intro member
  simp only [List.mem_cons, List.not_mem_nil, or_false] at member
  rcases member with rfl | rfl | rfl | rfl <;> exact absurd space (by decide)

theorem flagAfter_spaces (spaces : ∀ c ∈ gap, isSpace c = true) : flagAfter quoted gap = quoted :=
  flagAfter_plain fun member => not_space_special (spaces _ member) List.mem_cons_self

theorem sheltered_spaces (spaces : ∀ c ∈ gap, isSpace c = true) (parens : special ⊆ [';', '(', ')']) :
    Sheltered special quoted gap :=
  sheltered_plain fun c member among =>
    not_space_special (spaces c member) (List.mem_cons_of_mem _ (parens among))

/-! ### What a strip leaves -/

/-- A text that neither begins nor ends in white space. -/
structure IsSolid (text : List Char) : Prop where
  written : text ≠ []
  first : ∀ c ∈ text.head?, isSpace c = false
  last : ∀ c ∈ text.getLast?, isSpace c = false

theorem stripped_between {before after : List Char} (spaces : ∀ c ∈ before, isSpace c = true)
    (spaces' : ∀ c ∈ after, isSpace c = true) (solid : IsSolid text) :
    stripped (before ++ text ++ after) = text := by
  have core : strip (String.ofList (before ++ text ++ after)) = String.ofList text := by
    refine stripOf_eq_iff.mpr ⟨before, after, spaces, spaces', ?_, ?_, ?_⟩
    · rw [String.toList_ofList, String.toList_ofList]
    · rw [String.toList_ofList]
      exact solid.first
    · rw [String.toList_ofList]
      exact solid.last
  rw [stripped, core, String.toList_ofList]

theorem stripped_solid (solid : IsSolid text) : stripped text = text := by
  have whole := stripped_between (List.forall_mem_nil _) (List.forall_mem_nil _) solid
  rwa [List.nil_append, List.append_nil] at whole

theorem exists_stripped (text : List Char) :
    ∃ before after : List Char, (∀ c ∈ before, isSpace c = true) ∧ (∀ c ∈ after, isSpace c = true) ∧
      text = before ++ stripped text ++ after := by
  obtain ⟨before, after, spaces, spaces', whole, -⟩ := strips isSpace (String.ofList text)
  rw [String.toList_ofList] at whole
  exact ⟨before, after, spaces, spaces', whole⟩

theorem mem_stripped (plain : isSpace c = false) (member : c ∈ text) : c ∈ stripped text := by
  obtain ⟨before, after, spaces, spaces', whole⟩ := exists_stripped text
  rw [whole, List.mem_append, List.mem_append] at member
  obtain (left | inside) | right := member
  · exact absurd (spaces c left) (by simp [plain])
  · exact inside
  · exact absurd (spaces' c right) (by simp [plain])

theorem stripped_spaces (spaces : ∀ c ∈ text, isSpace c = true) : stripped text = [] := by
  have core : strip (String.ofList text) = "" := by
    refine stripOf_eq_iff.mpr ⟨text, [], spaces, List.forall_mem_nil _, ?_, ?_, ?_⟩
    · rw [String.toList_ofList]
      exact ((List.append_nil _).trans (List.append_nil _)).symm
    · rintro _ ⟨⟩
    · rintro _ ⟨⟩
  rw [stripped, core]
  rfl

theorem flagAfter_stripped (text : List Char) : flagAfter quoted (stripped text) = flagAfter quoted text := by
  obtain ⟨before, after, spaces, spaces', whole⟩ := exists_stripped text
  conv_rhs =>
    rw [whole, flagAfter_append, flagAfter_append, flagAfter_spaces spaces, flagAfter_spaces spaces']

theorem parenBalanceFrom_stripped (text : List Char) :
    parenBalanceFrom quoted (stripped text) = parenBalanceFrom quoted text := by
  obtain ⟨before, after, spaces, spaces', whole⟩ := exists_stripped text
  have none {quoted : Bool} {gap : List Char} (spaces : ∀ c ∈ gap, isSpace c = true) :
      parenBalanceFrom quoted gap = 0 :=
    parenBalanceFrom_sheltered (sheltered_spaces spaces (List.subset_cons_self _ _))
  conv_rhs =>
    rw [whole, parenBalanceFrom_append, parenBalanceFrom_append, none spaces, none spaces',
      flagAfter_spaces spaces, Int.zero_add, Int.add_zero]

theorem words_stripped (text : List Char) :
    wordsOf (withoutParensFrom quoted (stripped text)) = wordsOf (withoutParensFrom quoted text) := by
  obtain ⟨before, after, spaces, spaces', whole⟩ := exists_stripped text
  have same {quoted : Bool} {gap : List Char} (spaces : ∀ c ∈ gap, isSpace c = true) :
      withoutParensFrom quoted gap = gap :=
    withoutParensFrom_sheltered (sheltered_spaces spaces (List.subset_cons_self _ _))
  conv_rhs =>
    rw [whole, withoutParensFrom_append, withoutParensFrom_append, same spaces, same spaces',
      flagAfter_spaces spaces, wordsOf_append_spaces spaces', wordsOf_gap spaces]

end SuiteCloud.Mail.Cluster.Zone
