/-
**The lines of a text.**

`str.splitlines` ends a line at more characters than the new line. A text that is one line to its writer may
be several pieces to a reader.

* `splitlines` — the lines of a text; `splitlines_line`, `splitlines_line_return` — its first line.
* `pieces` — what a line of a writer that ends its lines with a new line is read as; `linesFrom_append`.
* `mem_piecesFrom` — **a piece** is the beginning of its line, or stands after a line break.
-/

import Mathlib.Data.List.Basic
import Mathlib.Tactic.Common

namespace SuiteCloud.Library

/-- The characters `str.splitlines` ends a line at. -/
def isLineBreak (c : Char) : Bool :=
  c.toNat ∈ [0x0A, 0x0B, 0x0C, 0x0D, 0x1C, 0x1D, 0x1E, 0x85, 0x2028, 0x2029]

/-- The lines of a text, the first of which has begun. -/
def linesFrom (line : List Char) : List Char → List (List Char)
  | [] => if line = [] then [] else [line]
  | '\r' :: '\n' :: rest => line :: linesFrom [] rest
  | c :: rest => if isLineBreak c then line :: linesFrom [] rest else linesFrom (line ++ [c]) rest

/-- **`str.splitlines`.** -/
def splitlines (text : List Char) : List (List Char) := linesFrom [] text

/-! ### The pieces of a line -/

/-- What `splitlines` makes of a line with no carriage return, the first piece of which has begun. -/
def piecesFrom (piece : List Char) : List Char → List (List Char)
  | [] => [piece]
  | c :: rest => if isLineBreak c then piece :: piecesFrom [] rest else piecesFrom (piece ++ [c]) rest

def pieces (text : List Char) : List (List Char) := piecesFrom [] text

variable {text piece rest : List Char} {c : Char}

theorem linesFrom_cons (plain : c ≠ '\r') :
    linesFrom piece (c :: rest)
      = if isLineBreak c then piece :: linesFrom [] rest else linesFrom (piece ++ [c]) rest := by
  rw [linesFrom]
  exact fun _ same _ => plain same

/-- A line that is ended. -/
theorem linesFrom_append (plain : ∀ c ∈ text, c ≠ '\r') :
    linesFrom piece (text ++ '\n' :: rest) = piecesFrom piece text ++ linesFrom [] rest := by
  induction text generalizing piece with
  | nil =>
    rw [List.nil_append, linesFrom_cons (by decide)]
    rfl
  | cons c text ih =>
    obtain ⟨first, later⟩ := List.forall_mem_cons.mp plain
    rw [List.cons_append, linesFrom_cons first, piecesFrom]
    split
    · rw [ih later, List.cons_append]
    · rw [ih later]

theorem piecesFrom_eq (plain : ∀ c ∈ text, ¬ isLineBreak c) : piecesFrom piece text = [piece ++ text] := by
  induction text generalizing piece with
  | nil => rw [piecesFrom, List.append_nil]
  | cons c text ih =>
    obtain ⟨first, later⟩ := List.forall_mem_cons.mp plain
    rw [piecesFrom, if_neg first, ih later, List.append_assoc, List.singleton_append]

/-- **A piece** is the beginning of its line, or stands after one of the characters. -/
theorem mem_piecesFrom {begun : List Char} (member : piece ∈ piecesFrom begun text)
    (clean : ∀ c ∈ begun, ¬ isLineBreak c) :
    (∀ c ∈ piece, ¬ isLineBreak c) ∧
      ((∃ after, begun ++ text = piece ++ after) ∨
        ∃ before c after, text = before ++ c :: (piece ++ after) ∧ isLineBreak c) := by
  induction text generalizing begun with
  | nil =>
    obtain rfl := List.mem_singleton.mp member
    exact ⟨clean, Or.inl ⟨[], rfl⟩⟩
  | cons c text ih =>
    rw [piecesFrom] at member
    split at member
    · next breaks =>
      rcases List.mem_cons.mp member with rfl | later
      · exact ⟨clean, Or.inl ⟨c :: text, rfl⟩⟩
      · obtain ⟨free, ⟨after, begins⟩ | ⟨before, d, after, stands, breaks'⟩⟩ :=
          ih later fun _ none => absurd none List.not_mem_nil
        · exact ⟨free, Or.inr ⟨[], c, after, congrArg (c :: ·) begins, breaks⟩⟩
        · exact ⟨free, Or.inr ⟨c :: before, d, after, congrArg (c :: ·) stands, breaks'⟩⟩
    · next whole =>
      have clean' : ∀ d ∈ begun ++ [c], ¬ isLineBreak d := fun d among => by
        rcases List.mem_append.mp among with before | last
        · exact clean d before
        · exact List.mem_singleton.mp last ▸ whole
      obtain ⟨free, ⟨after, begins⟩ | ⟨before, d, after, stands, breaks'⟩⟩ := ih member clean'
      · rw [List.append_assoc, List.singleton_append] at begins
        exact ⟨free, Or.inl ⟨after, begins⟩⟩
      · exact ⟨free, Or.inr ⟨c :: before, d, after, congrArg (c :: ·) stands, breaks'⟩⟩

theorem pieces_eq (plain : ∀ c ∈ text, ¬ isLineBreak c) : pieces text = [text] := piecesFrom_eq plain

/-- **The first line of a text.** -/
theorem splitlines_line (plain : ∀ c ∈ text, ¬ isLineBreak c) :
    splitlines (text ++ '\n' :: rest) = text :: splitlines rest := by
  have noReturn : ∀ c ∈ text, c ≠ '\r' := by
    rintro c member rfl
    exact plain _ member rfl
  rw [splitlines, linesFrom_append noReturn, piecesFrom_eq plain]
  rfl

theorem linesFrom_return {piece : List Char} (plain : ∀ c ∈ text, ¬ isLineBreak c) :
    linesFrom piece (text ++ '\r' :: '\n' :: rest) = (piece ++ text) :: linesFrom [] rest := by
  induction text generalizing piece with
  | nil => rw [List.nil_append, List.append_nil, linesFrom]
  | cons c text ih =>
    obtain ⟨first, later⟩ := List.forall_mem_cons.mp plain
    have other : c ≠ '\r' := by
      rintro rfl
      exact first (by decide)
    rw [List.cons_append, linesFrom_cons other, if_neg first, ih later, List.append_assoc, List.singleton_append]

/-- A line may end in a carriage return and a new line. -/
theorem splitlines_line_return (plain : ∀ c ∈ text, ¬ isLineBreak c) :
    splitlines (text ++ '\r' :: '\n' :: rest) = text :: splitlines rest := linesFrom_return plain

end SuiteCloud.Library
