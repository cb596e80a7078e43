/-
**The words of a shell.**

`shlex.split`, in POSIX mode: white space parts the words, except in quotes and after a backslash; in double
quotes a backslash escapes a quote and itself, and stands for itself before another character.

* `Shlex.next`, `shlexSplit` — the reader, and what it makes of a text.
* `doubleQuoted` — a text in double quotes, its quotes and backslashes escaped.
* `shlexSplit_quoted` — **texts in double quotes are read back**, whatever blanks stand between them.
-/

import SuiteCloud.Library.Words

namespace SuiteCloud.Library

/-- Where the reader stands. -/
inductive Shlex.Standing
  | between
  | word
  | quoted (quote : Char)
  /-- After a backslash, in the quotes or outside. -/
  | escaped (quote : Option Char)

/-- The words read, the one under way, and where the reader stands. -/
structure Shlex where
  words : List (List Char)
  word : List Char
  standing : Shlex.Standing

namespace Shlex

/-- `shlex.whitespace`. -/
def isBlank (c : Char) : Bool := c ∈ [' ', '\t', '\r', '\n']

def isQuote (c : Char) : Bool := c = '\'' || c = '"'

/-- **The reader's next character.** -/
def next (reader : Shlex) (c : Char) : Shlex :=
  match reader.standing with
  | .between =>
      if isBlank c then reader
      else if c = '\\' then { reader with standing := .escaped none }
      else if isQuote c then { reader with standing := .quoted c }
      else { reader with word := [c], standing := .word }
  | .word =>
      if isBlank c then ⟨reader.words ++ [reader.word], [], .between⟩
      else if isQuote c then { reader with standing := .quoted c }
      else if c = '\\' then { reader with standing := .escaped none }
      else { reader with word := reader.word ++ [c] }
  | .quoted quote =>
      if c = quote then { reader with standing := .word }
      else if c = '\\' ∧ quote = '"' then { reader with standing := .escaped (some quote) }
      else { reader with word := reader.word ++ [c] }
  | .escaped none => { reader with word := reader.word ++ [c], standing := .word }
  | .escaped (some quote) =>
      if c = '\\' ∨ c = quote then { reader with word := reader.word ++ [c], standing := .quoted quote }
      else { reader with word := reader.word ++ ['\\', c], standing := .quoted quote }

def run (reader : Shlex) (text : List Char) : Shlex := text.foldl next reader

/-- The words, at the end of the text; none inside quotes or after a backslash. -/
def ends (reader : Shlex) : Option (List (List Char)) :=
  match reader.standing with
  | .between => some reader.words
  | .word => some (reader.words ++ [reader.word])
  | _ => none

end Shlex

/-- **`shlex.split`**; none where it raises. -/
def shlexSplit (text : List Char) : Option (List (List Char)) := (Shlex.run ⟨[], [], .between⟩ text).ends

/-- How a character is written in double quotes. -/
def escapeQuoted (c : Char) : List Char := if c = '"' ∨ c = '\\' then ['\\', c] else [c]

/-- **A text in double quotes.** -/
def doubleQuoted (content : List Char) : List Char := '"' :: content.flatMap escapeQuoted ++ ['"']

example : shlexSplit "a  \"b \\\" c\"'d'".toList = some ["a".toList, "b \" cd".toList] := by decide

namespace Shlex

variable {reader : Shlex} {words : List (List Char)} {word content text : List Char} {c : Char}

theorem run_append (first second : List Char) : reader.run (first ++ second) = (reader.run first).run second :=
  List.foldl_append

/-- A character in double quotes. -/
theorem run_escapeQuoted (c : Char) :
    run ⟨words, word, .quoted '"'⟩ (escapeQuoted c) = ⟨words, word ++ [c], .quoted '"'⟩ := by
  unfold escapeQuoted
  split
  · next escapes =>
    have opens : ('\\' : Char) ≠ '"' := by decide
    show next (next ⟨words, word, .quoted '"'⟩ '\\') c = _
    have backslash : next ⟨words, word, .quoted '"'⟩ '\\' = ⟨words, word, .escaped (some '"')⟩ := by
      simp only [next, if_neg opens, true_and, if_true]
    rw [backslash]
    exact if_pos escapes.symm
  · next plain =>
    obtain ⟨noQuote, noBackslash⟩ := not_or.mp plain
    show next ⟨words, word, .quoted '"'⟩ c = _
    simp only [next, if_neg noQuote, noBackslash, false_and, if_false]

theorem run_content : run ⟨words, word, .quoted '"'⟩ (content.flatMap escapeQuoted)
    = ⟨words, word ++ content, .quoted '"'⟩ := by
  induction content generalizing word with
  | nil => rw [List.flatMap_nil, List.append_nil]; rfl
  | cons c content ih =>
    rw [List.flatMap_cons, run_append, run_escapeQuoted, ih, List.append_assoc, List.singleton_append]

/-- **A text in double quotes**, as a word. -/
theorem run_doubleQuoted : run ⟨words, [], .between⟩ (doubleQuoted content) = ⟨words, content, .word⟩ := by
  have opens : next ⟨words, [], .between⟩ '"' = ⟨words, [], .quoted '"'⟩ := rfl
  unfold doubleQuoted
  rw [List.cons_append]
  show run (next ⟨words, [], .between⟩ '"') _ = _
  rw [opens, run_append, run_content, List.nil_append]
  rfl

theorem run_blanks {gap : List Char} (blanks : ∀ c ∈ gap, isBlank c = true) :
    run ⟨words, [], .between⟩ gap = ⟨words, [], .between⟩ := by
  induction gap with
  | nil => rfl
  | cons c gap ih =>
    obtain ⟨first, later⟩ := List.forall_mem_cons.mp blanks
    have stays : next ⟨words, [], .between⟩ c = ⟨words, [], .between⟩ := if_pos first
    show run (next ⟨words, [], .between⟩ c) gap = _
    rw [stays, ih later]

/-- A gap ends a word. -/
theorem run_gap {gap : List Char} (some : gap ≠ []) (blanks : ∀ c ∈ gap, isBlank c = true) :
    run ⟨words, word, .word⟩ gap = ⟨words ++ [word], [], .between⟩ := by
  cases gap with
  | nil => exact absurd rfl some
  | cons c gap =>
    obtain ⟨first, later⟩ := List.forall_mem_cons.mp blanks
    have ended : next ⟨words, word, .word⟩ c = ⟨words ++ [word], [], .between⟩ := if_pos first
    show run (next ⟨words, word, .word⟩ c) gap = _
    rw [ended, run_blanks later]

/-- Texts in double quotes, after the words read so far. -/
theorem run_spaced {isGap : List Char → Prop} (gaps : ∀ gap, isGap gap → gap ≠ [] ∧ ∀ c ∈ gap, isBlank c = true)
    {contents : List (List Char)} (spaced : Spaced isGap (contents.map doubleQuoted) text) :
    (run ⟨words, [], .between⟩ text).ends = some (words ++ contents) := by
  induction contents generalizing words text with
  | nil => cases spaced
  | cons content contents ih =>
    rw [List.map_cons] at spaced
    generalize same : contents.map doubleQuoted = fields at spaced
    cases spaced with
    | one =>
      obtain rfl := List.map_eq_nil_iff.mp same
      rw [run_doubleQuoted]
      rfl
    | cons _ gap isGap later =>
      subst same
      obtain ⟨some, blanks⟩ := gaps gap isGap
      rw [run_append, run_append, run_doubleQuoted, run_gap some blanks, ih later, List.append_assoc,
        List.singleton_append]

end Shlex

/-- **Texts in double quotes are read back.** -/
theorem shlexSplit_quoted {isGap : List Char → Prop} {contents : List (List Char)} {text : List Char}
    (gaps : ∀ gap, isGap gap → gap ≠ [] ∧ ∀ c ∈ gap, Shlex.isBlank c = true)
    (spaced : Spaced isGap (contents.map doubleQuoted) text) : shlexSplit text = some contents := by
  rw [shlexSplit, Shlex.run_spaced gaps spaced, List.nil_append]

end SuiteCloud.Library
