/-
**JSON writers, and texts cut short.**

* `loads_eq_none_of_cut` — **a list or an object cut short is not read**: what is left of its text leaves
  the reader inside of it (`Reader.Inside`).
* `plainEscape` — the escapes of a writer that escapes only what it must; `asciiEscape` — of one that keeps
  to printable ASCII.
* `compact`, `indented` — the writers that put no blanks, and a line for each item.
-/

import Mathlib.Tactic.SplitIfs
import SuiteCloud.Library.Json

set_option linter.unusedSectionVars false

namespace SuiteCloud.Library

namespace Json

variable {N : Type} [Numeral N] {style : Style} {value : Json N}

/-! ### A text cut short -/

/-- A list or an object. -/
def isNested : Json N → Bool
  | .list _ => true
  | .object _ => true
  | _ => false

/-- **Inside a list or an object**, or after it. -/
def Reader.Inside (reader : Reader N) : Prop :=
  match reader.mode with
  | .value => reader.stack ≠ []
  | .word _ => reader.stack ≠ []
  | .text _ => reader.stack ≠ []
  | _ => True

theorem inside_follow {stack : List (Frame N)} {c : Char} {reader : Reader N}
    (next : follow value stack c = some reader) : reader.Inside := by
  unfold follow at next
  split at next
  · exact Option.some.inj next ▸ trivial
  · cases stack with
    | nil => cases next
    | cons frame rest =>
      cases frame with
      | list items =>
        simp only at next
        split_ifs at next
        · exact Option.some.inj next ▸ List.cons_ne_nil _ _
        · exact Option.some.inj next ▸ trivial
      | object members key =>
        simp only at next
        split_ifs at next
        · exact Option.some.inj next ▸ trivial
        · exact Option.some.inj next ▸ trivial

theorem inside_begin {stack : List (Frame N)} {c : Char} {reader : Reader N} (nested : stack ≠ [])
    (next : begin stack c = some reader) : reader.Inside := by
  unfold begin at next
  split_ifs at next
  all_goals obtain rfl := Option.some.inj next
  · exact nested
  · exact nested
  · trivial
  · trivial
  · exact nested

theorem Reader.Inside.next {reader reader' : Reader N} {c : Char} (inside : reader.Inside)
    (next : reader.next c = some reader') : reader'.Inside := by
  obtain ⟨mode, stack⟩ := reader
  cases mode with
  | value => exact inside_begin inside next
  | firstItem =>
    simp only [Reader.next] at next
    split_ifs at next
    · exact Option.some.inj next ▸ trivial
    · exact Option.some.inj next ▸ trivial
    · exact inside_begin (List.cons_ne_nil _ _) next
  | firstKey =>
    simp only [Reader.next] at next
    split_ifs at next
    all_goals exact Option.some.inj next ▸ trivial
  | key members =>
    simp only [Reader.next] at next
    split_ifs at next
    all_goals exact Option.some.inj next ▸ trivial
  | keyText members reading =>
    simp only [Reader.next] at next
    split_ifs at next
    · exact Option.some.inj next ▸ trivial
    · obtain ⟨reading', -, rfl⟩ := Option.map_eq_some_iff.mp next
      trivial
  | colon members key =>
    simp only [Reader.next] at next
    split_ifs at next
    · exact Option.some.inj next ▸ trivial
    · exact Option.some.inj next ▸ List.cons_ne_nil _ _
  | text reading =>
    simp only [Reader.next] at next
    split_ifs at next
    · exact Option.some.inj next ▸ trivial
    · obtain ⟨reading', -, rfl⟩ := Option.map_eq_some_iff.mp next
      exact inside
  | word read =>
    simp only [Reader.next] at next
    split_ifs at next
    · exact Option.some.inj next ▸ inside
    · obtain ⟨value, -, follows⟩ := Option.bind_eq_some_iff.mp next
      exact inside_follow follows
  | done value => exact inside_follow next

theorem Reader.Inside.run {reader reader' : Reader N} {text : List Char} (inside : reader.Inside)
    (reads : reader.run text = some reader') : reader'.Inside := by
  induction text generalizing reader with
  | nil => exact Option.some.inj reads ▸ inside
  | cons c text ih =>
    rw [run_cons] at reads
    obtain ⟨middle, first, later⟩ := Option.bind_eq_some_iff.mp reads
    exact ih (inside.next first) later

/-- Only blanks follow a value. -/
theorem blank_after {text : List Char} {reader : Reader N}
    (reads : Reader.run ⟨.done value, []⟩ text = some reader) : ∀ c ∈ text, isBlank c = true := by
  induction text with
  | nil => exact fun _ none => absurd none List.not_mem_nil
  | cons c text ih =>
    rw [run_cons] at reads
    obtain ⟨middle, first, later⟩ := Option.bind_eq_some_iff.mp reads
    simp only [Reader.next, follow] at first
    split at first
    · rename_i blank
      obtain rfl := Option.some.inj first
      exact List.forall_mem_cons.mpr ⟨blank, ih later⟩
    · cases first

theorem writeItems_last (depth : ℕ) (first : Bool) (items : List (Json N)) :
    ∃ before, style.writeItems depth first items = before ++ [']'] := by
  induction items generalizing first with
  | nil => exact ⟨_, rfl⟩
  | cons item items ih =>
    obtain ⟨before, ends⟩ := ih false
    exact ⟨_, by rw [Style.writeItems, ends, ← List.append_assoc]⟩

theorem writeMembers_last (depth : ℕ) (first : Bool) (members : List (String × Json N)) :
    ∃ before, style.writeMembers depth first members = before ++ ['\x7d'] := by
  induction members generalizing first with
  | nil => exact ⟨_, rfl⟩
  | cons member members ih =>
    obtain ⟨before, ends⟩ := ih false
    exact ⟨_, by rw [Style.writeMembers, ends, ← List.append_assoc]⟩

/-- A written list or object: its brackets, of which the first brings the reader inside. -/
theorem write_nested (nested : isNested value = true) (depth : ℕ) :
    ∃ opens inner closes, style.write depth value = opens :: inner ++ [closes] ∧ isBlank closes = false ∧
      ∃ reader : Reader N, Reader.start.next opens = some reader ∧ reader.Inside := by
  cases value with
  | list items =>
    obtain ⟨before, ends⟩ := writeItems_last depth true items
    exact ⟨'[', before, ']', congrArg ('[' :: ·) ends, rfl, _, rfl, trivial⟩
  | object members =>
    obtain ⟨before, ends⟩ := writeMembers_last depth true members
    exact ⟨'\x7b', before, '\x7d', congrArg ('\x7b' :: ·) ends, rfl, _, rfl, trivial⟩
  | _ => cases nested

/-- **A list or an object cut short** leaves the reader inside of it. -/
theorem run_cut {cut rest : List Char} (nested : isNested value = true) (distinct : keyed value = true)
    (written : style.dumps value = cut ++ rest) (some : cut ≠ []) :
    ∃ reader : Reader N, Reader.start.run cut = .some reader ∧ reader.Inside := by
  obtain ⟨final, reading, -⟩ := reads_written style value distinct 0 []
  obtain ⟨opens, inner, closes, brackets, -, first, opened, inside⟩ := @write_nested N _ style value nested 0
  have whole : Reader.start.run (cut ++ rest) = .some final := written ▸ reading
  rw [run_append] at whole
  obtain ⟨reader, before, -⟩ := Option.bind_eq_some_iff.mp whole
  obtain ⟨c, tail, rfl⟩ := List.exists_cons_of_ne_nil some
  obtain rfl : opens = c := by
    have same := written.symm.trans brackets
    rw [List.cons_append, List.cons_append] at same
    exact (List.cons.inj same).1.symm
  refine ⟨reader, before, ?_⟩
  rw [run_cons, opened, Option.bind_some] at before
  exact inside.run before

/-- **A list or an object cut short is not read.** -/
theorem loads_eq_none_of_cut {cut rest : List Char} (nested : isNested value = true) (distinct : keyed value = true)
    (written : style.dumps value = cut ++ rest) (short : rest ≠ []) : loads (N := N) cut = none := by
  by_cases empty : cut = []
  · subst empty
    rfl
  obtain ⟨reader, before, inside⟩ := run_cut nested distinct written empty
  obtain ⟨final, reading, -⟩ := reads_written style value distinct 0 []
  have whole : Reader.start.run (cut ++ rest) = some final := written ▸ reading
  rw [run_append, before, Option.bind_some] at whole
  -- The bracket that closes the value is in what is cut off.
  obtain ⟨opens, inner, closes, brackets, plain, -⟩ := @write_nested N _ style value nested 0
  have closing : closes ∈ rest := by
    have last : (cut ++ rest).getLast? = some closes := by
      rw [← written, Style.dumps, brackets, List.getLast?_concat]
    rw [List.getLast?_append_of_ne_nil _ short] at last
    exact List.mem_of_getLast? last
  rw [loads, before, Option.bind_some]
  obtain ⟨mode, stack⟩ := reader
  cases stack with
  | cons frame stack => rfl
  | nil =>
    cases mode with
    | done value => exact absurd (blank_after whole closes closing) (Bool.eq_false_iff.mp plain)
    | word read => exact absurd rfl inside
    | _ => rfl

/-! ### Two writers -/

/-- The characters with a letter to escape them by. -/
def escapeLetters : List (Char × Char) :=
  [('"', '"'), ('\\', '\\'), (Char.ofNat 8, 'b'), (Char.ofNat 12, 'f'), ('\n', 'n'), ('\r', 'r'), ('\t', 't')]

/-- `\u` and the four digits of a 16-bit unit. -/
def unicodeEscape (unit : ℕ) : List Char :=
  ['\\', 'u', Nat.digitChar (unit / 4096), Nat.digitChar (unit / 256 % 16), Nat.digitChar (unit / 16 % 16),
    Nat.digitChar (unit % 16)]

/-- **Escapes of what must be escaped**: the quote, the backslash and the control characters. -/
def plainEscape (c : Char) : List Char :=
  match escapeLetters.lookup c with
  | some letter => ['\\', letter]
  | none => if c < ' ' then unicodeEscape c.toNat else [c]

/-- **Escapes of everything but printable ASCII**: a character past U+FFFF is a surrogate pair. -/
def asciiEscape (c : Char) : List Char :=
  match escapeLetters.lookup c with
  | some letter => ['\\', letter]
  | none =>
      if ' ' ≤ c ∧ c ≤ '~' then [c]
      else if c.toNat < 0x10000 then unicodeEscape c.toNat
      else
        unicodeEscape (0xD800 + (c.toNat - 0x10000) / 0x400) ++
          unicodeEscape (0xDC00 + (c.toNat - 0x10000) % 0x400)

/-- What escapes are made of. -/
def escapeMarks : List Char :=
  '\\' :: 'u' :: escapeLetters.map Prod.snd ++ (List.range 16).map Nat.digitChar

section Escapes

variable {c d letter : Char} {read : List Char}

theorem mem_letterEscape (short : escapeLetters.lookup c = some letter) (member : d ∈ ['\\', letter]) :
    d ∈ escapeMarks := by
  have table : ∀ pair ∈ escapeLetters, pair.2 ∈ escapeMarks := by decide
  obtain ⟨before, after, split, -⟩ := List.lookup_eq_some_iff.mp short
  rcases List.mem_cons.mp member with rfl | last
  · exact List.mem_cons_self
  · exact List.mem_singleton.mp last ▸ table (c, letter) (split ▸ List.mem_append_right _ List.mem_cons_self)

theorem mem_unicodeEscape {unit : ℕ} (small : unit < 0x10000) (member : d ∈ unicodeEscape unit) :
    d ∈ escapeMarks := by
  have digit {value : ℕ} (least : value < 16) : Nat.digitChar value ∈ escapeMarks :=
    List.mem_cons_of_mem _ (List.mem_cons_of_mem _
      (List.mem_append_right _ (List.mem_map_of_mem (List.mem_range.mpr least))))
  simp only [unicodeEscape, List.mem_cons, List.not_mem_nil, or_false] at member
  rcases member with rfl | rfl | rfl | rfl | rfl | rfl
  · exact List.mem_cons_self
  · exact List.mem_cons_of_mem _ List.mem_cons_self
  all_goals exact digit (by omega)

theorem toNat_lt (c : Char) : c.toNat < 0x110000 := by
  rcases c.valid with below | above
  · exact Nat.lt_trans below (by decide)
  · exact above.2

/-- **What an escape is made of**: of the character itself, or of the marks. -/
theorem mem_plainEscape (member : d ∈ plainEscape c) : (d = c ∧ ' ' ≤ c) ∨ d ∈ escapeMarks := by
  unfold plainEscape at member
  cases short : escapeLetters.lookup c with
  | some letter =>
    rw [short] at member
    exact Or.inr (mem_letterEscape short member)
  | none =>
    simp only [short] at member
    split at member
    · next control => exact Or.inr (mem_unicodeEscape (Nat.lt_trans control (by decide)) member)
    · next printed => exact Or.inl ⟨List.mem_singleton.mp member, not_lt.mp printed⟩

theorem mem_asciiEscape (member : d ∈ asciiEscape c) : (d = c ∧ ' ' ≤ c) ∨ d ∈ escapeMarks := by
  have most := toNat_lt c
  unfold asciiEscape at member
  cases short : escapeLetters.lookup c with
  | some letter =>
    rw [short] at member
    exact Or.inr (mem_letterEscape short member)
  | none =>
    simp only [short] at member
    split at member
    · next printed => exact Or.inl ⟨List.mem_singleton.mp member, printed.1⟩
    · split at member
      · next small => exact Or.inr (mem_unicodeEscape small member)
      · rcases List.mem_append.mp member with first | second
        · exact Or.inr (mem_unicodeEscape (by omega) first)
        · exact Or.inr (mem_unicodeEscape (by omega) second)

theorem hexValue_digitChar {digit : ℕ} (small : digit < 16) : hexValue (Nat.digitChar digit) = some digit := by
  have table : ∀ digit ∈ List.range 16, hexValue (Nat.digitChar digit) = some digit := by decide
  exact table digit (List.mem_range.mpr small)

theorem foldlM_cons_some {reading middle : Reading} {text : List Char} (next : reading.next c = some middle) :
    (c :: text).foldlM Reading.next reading = text.foldlM Reading.next middle := by
  rw [List.foldlM_cons, next]
  rfl

theorem reads_letter (short : escapeLetters.lookup c = some letter) :
    ['\\', letter].foldlM Reading.next (.of read) = some (.of (read ++ [c])) := by
  have table : ∀ pair ∈ escapeLetters, escaped pair.2 = some pair.1 ∧ pair.2 ≠ 'u' := by decide
  obtain ⟨before, after, split, -⟩ := List.lookup_eq_some_iff.mp short
  obtain ⟨stands, other⟩ := table (c, letter) (split ▸ List.mem_append_right _ List.mem_cons_self)
  have backslash : Reading.next (.of read) '\\' = some ⟨read, none, .backslash⟩ := rfl
  have last : Reading.next ⟨read, none, .backslash⟩ letter = some (.of (read ++ [c])) := by
    refine (if_neg other).trans ((if_neg (show ¬ (none : Option ℕ).isSome = true from nofun)).trans ?_)
    rw [stands]
    rfl
  rw [foldlM_cons_some backslash, foldlM_cons_some last]
  rfl

theorem reads_itself (long : escapeLetters.lookup c = none) (printed : ¬ c < ' ') :
    [c].foldlM Reading.next (.of read) = some (.of (read ++ [c])) := by
  have other : ∀ pair ∈ escapeLetters, c ≠ pair.1 := fun pair member same =>
    absurd (List.lookup_eq_none_iff.mp long pair member) (by simp [same])
  have next : Reading.next (.of read) c = some (.of (read ++ [c])) := by
    refine (if_neg (other ('\\', '\\') (by decide))).trans (if_neg ?_)
    rintro (quote | control | high)
    · exact other ('"', '"') (by decide) quote
    · exact printed control
    · cases high
  rw [foldlM_cons_some next]
  rfl

theorem reads_unit {unit : ℕ} {high : Option ℕ} (small : unit < 0x10000) :
    (unicodeEscape unit).foldlM Reading.next ⟨read, high, .plain⟩ = Reading.unit ⟨read, high, .plain⟩ unit := by
  have digits : ((unit / 4096 * 16 + unit / 256 % 16) * 16 + unit / 16 % 16) * 16 + unit % 16 = unit := by omega
  have first : hexValue (Nat.digitChar (unit / 4096)) = _ := hexValue_digitChar (by omega)
  have second : hexValue (Nat.digitChar (unit / 256 % 16)) = _ := hexValue_digitChar (by omega)
  have third : hexValue (Nat.digitChar (unit / 16 % 16)) = _ := hexValue_digitChar (by omega)
  have fourth : hexValue (Nat.digitChar (unit % 16)) = _ := hexValue_digitChar (by omega)
  have backslash : Reading.next ⟨read, high, .plain⟩ '\\' = some ⟨read, high, .backslash⟩ := rfl
  have letter : Reading.next ⟨read, high, .backslash⟩ 'u' = some ⟨read, high, .unicode []⟩ := rfl
  have last : Reading.next ⟨read, high, .unicode [unit / 4096, unit / 256 % 16, unit / 16 % 16]⟩
      (Nat.digitChar (unit % 16)) = Reading.unit ⟨read, high, .plain⟩ unit := by
    simp only [Reading.next]
    rw [fourth, Option.bind_some, digits]
    rfl
  have one : Reading.next ⟨read, high, .unicode []⟩ (Nat.digitChar (unit / 4096))
      = some ⟨read, high, .unicode [unit / 4096]⟩ := by
    simp only [Reading.next, first, Option.map_some, List.nil_append]
  have two : Reading.next ⟨read, high, .unicode [unit / 4096]⟩ (Nat.digitChar (unit / 256 % 16))
      = some ⟨read, high, .unicode [unit / 4096, unit / 256 % 16]⟩ := by
    simp only [Reading.next, second, Option.map_some, List.cons_append, List.nil_append]
  have three : Reading.next ⟨read, high, .unicode [unit / 4096, unit / 256 % 16]⟩ (Nat.digitChar (unit / 16 % 16))
      = some ⟨read, high, .unicode [unit / 4096, unit / 256 % 16, unit / 16 % 16]⟩ := by
    simp only [Reading.next, third, Option.map_some, List.cons_append, List.nil_append]
  rw [unicodeEscape, foldlM_cons_some backslash, foldlM_cons_some letter, foldlM_cons_some one,
    foldlM_cons_some two, foldlM_cons_some three, List.foldlM_cons, last]
  exact bind_pure _

/-- A character of the first 65536 is one unit. -/
theorem reads_short (small : c.toNat < 0x10000) :
    (unicodeEscape c.toNat).foldlM Reading.next (.of read) = some (.of (read ++ [c])) := by
  have valid := c.valid
  have low : ¬ (0xD800 ≤ c.toNat ∧ c.toNat < 0xDC00) := by
    rcases valid with below | above
    · exact fun both => absurd both.1 (by have : c.toNat < 0xD800 := below; omega)
    · exact fun both => absurd both.2 (by have : 0xDFFF < c.toNat := above.1; omega)
  have high : ¬ (0xDC00 ≤ c.toNat ∧ c.toNat < 0xE000) := by
    rcases valid with below | above
    · exact fun both => absurd both.1 (by have : c.toNat < 0xD800 := below; omega)
    · exact fun both => absurd both.2 (by have : 0xDFFF < c.toNat := above.1; omega)
  refine (reads_unit small).trans ?_
  simp only [Reading.unit]
  rw [if_neg low, if_neg high, Char.ofNat_toNat]
  rfl

theorem unit_of_lead {unit : ℕ} (lead : 0xD800 ≤ unit ∧ unit < 0xDC00) :
    Reading.unit ⟨read, none, .plain⟩ unit = some ⟨read, some unit, .plain⟩ := by
  simp only [Reading.unit]
  rw [if_pos lead]

theorem unit_of_trail {unit high : ℕ} (trail : 0xDC00 ≤ unit ∧ unit < 0xE000) :
    Reading.unit ⟨read, some high, .plain⟩ unit
      = some (.of (read ++ [Char.ofNat (0x10000 + (high - 0xD800) * 0x400 + (unit - 0xDC00))])) := by
  simp only [Reading.unit]
  rw [if_pos trail, Reading.of]

theorem reads_surrogates {lead trail : ℕ} (first : 0xD800 ≤ lead ∧ lead < 0xDC00)
    (second : 0xDC00 ≤ trail ∧ trail < 0xE000) :
    (unicodeEscape lead ++ unicodeEscape trail).foldlM Reading.next (.of read)
      = some (.of (read ++ [Char.ofNat (0x10000 + (lead - 0xD800) * 0x400 + (trail - 0xDC00))])) := by
  have opened := (reads_unit (show lead < 0x10000 by omega)).trans
    (unit_of_lead first : Reading.unit ⟨read, none, .plain⟩ _ = _)
  have closed := (reads_unit (show trail < 0x10000 by omega)).trans
    (unit_of_trail second : Reading.unit ⟨read, some lead, .plain⟩ _ = _)
  rw [List.foldlM_append, Reading.of, opened, ← closed]
  rfl

/-- One past them is a pair of surrogates. -/
theorem reads_pair (large : ¬ c.toNat < 0x10000) :
    (unicodeEscape (0xD800 + (c.toNat - 0x10000) / 0x400) ++
      unicodeEscape (0xDC00 + (c.toNat - 0x10000) % 0x400)).foldlM Reading.next (.of read)
      = some (.of (read ++ [c])) := by
  have most : c.toNat < 0x110000 := by
    rcases c.valid with below | above
    · exact absurd (show c.toNat < 0xD800 from below) (by omega)
    · exact above.2
  have sum : 0x10000 + (0xD800 + (c.toNat - 0x10000) / 0x400 - 0xD800) * 0x400
      + (0xDC00 + (c.toNat - 0x10000) % 0x400 - 0xDC00) = c.toNat := by omega
  rw [reads_surrogates (by omega) (by omega), sum, Char.ofNat_toNat]

theorem reads_plainEscape (c : Char) (read : List Char) :
    (plainEscape c).foldlM Reading.next (.of read) = some (.of (read ++ [c])) := by
  unfold plainEscape
  cases short : escapeLetters.lookup c with
  | some letter => exact reads_letter short
  | none =>
    by_cases control : c < ' '
    · have small : c.toNat < 0x20 := control
      rw [if_pos control]
      exact reads_short (by omega)
    · rw [if_neg control]
      exact reads_itself short control

theorem reads_asciiEscape (c : Char) (read : List Char) :
    (asciiEscape c).foldlM Reading.next (.of read) = some (.of (read ++ [c])) := by
  unfold asciiEscape
  cases short : escapeLetters.lookup c with
  | some letter => exact reads_letter short
  | none =>
    by_cases printed : ' ' ≤ c ∧ c ≤ '~'
    · rw [if_pos printed]
      exact reads_itself short (not_lt.mpr printed.1)
    · rw [if_neg printed]
      by_cases small : c.toNat < 0x10000
      · rw [if_pos small]
        exact reads_short small
      · rw [if_neg small]
        exact reads_pair small

end Escapes

/-- **A writer that puts no blanks** between the tokens. -/
def compact (escape : Char → List Char)
    (escapes : ∀ c read, (escape c).foldlM Reading.next (.of read) = some (.of (read ++ [c]))) : Style where
  escape := escape
  opening _ := []
  between _ := []
  closing _ := []
  colon := []
  escapes := escapes
  blank _ _ none := absurd none List.not_mem_nil

/-- A new line, and two blanks for each level. -/
def indentation (depth : ℕ) : List Char := '\n' :: List.replicate (2 * depth) ' '

/-- **`json.dumps(value, indent=2)`**. -/
def indented : Style where
  escape := asciiEscape
  opening := indentation
  between := indentation
  closing := indentation
  colon := [' ']
  escapes := reads_asciiEscape
  blank depth := by
    have newLine : ∀ c ∈ indentation depth, isBlank c = true := by
      intro c member
      rcases List.mem_cons.mp member with rfl | blank
      · rfl
      · rw [(List.mem_replicate.mp blank).2]
        rfl
    intro c member
    simp only [List.mem_append, List.mem_singleton] at member
    rcases member with ((opening | between) | closing) | rfl
    · exact newLine c opening
    · exact newLine c between
    · exact newLine c closing
    · rfl

end Json

end SuiteCloud.Library
