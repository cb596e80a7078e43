/-
**Pieces of a JSON text.**

What a reader makes of a piece that begins inside of a string of the text it was cut from. Where the text's
own reader is inside of a string, the piece's reader is outside of one, and the other way round: each quote
changes both. So the piece's reader never takes a backslash, and what it reads as strings holds nothing but
characters of the piece.

* `Crossed`, `Crossed.next` — **the two readers, on opposite sides of a quote**.
* `Holds` — every character of a value's strings and keys meets a condition.
* `holds_of_piece` — **what is read of such a piece** holds only its characters.
* `inString_of_foreign` — after a character that stands in strings only, a reader is inside of one.
* `Writes.write` — a written text holds the escapes of its strings' characters, marks and blanks.
-/

import SuiteCloud.Library.JsonStyle

set_option linter.unusedSectionVars false

namespace SuiteCloud.Library

namespace Json

variable {N : Type} {p : Char → Prop}

/-! ### The characters of a value -/

mutual

/-- Every character of a value's strings and keys meets a condition. -/
def Holds (p : Char → Prop) : Json N → Prop
  | .text content => ∀ c ∈ content.toList, p c
  | .list items => HoldsItems p items
  | .object members => HoldsMembers p members
  | _ => True

def HoldsItems (p : Char → Prop) : List (Json N) → Prop
  | [] => True
  | item :: rest => Holds p item ∧ HoldsItems p rest

def HoldsMembers (p : Char → Prop) : List (String × Json N) → Prop
  | [] => True
  | (key, value) :: rest => (∀ c ∈ key.toList, p c) ∧ Holds p value ∧ HoldsMembers p rest

end

theorem holdsItems_iff {items : List (Json N)} : HoldsItems p items ↔ ∀ item ∈ items, Holds p item := by
  induction items with
  | nil => exact iff_of_true trivial fun _ none => absurd none List.not_mem_nil
  | cons item items ih => rw [HoldsItems, ih, List.forall_mem_cons]

theorem holdsMembers_iff {members : List (String × Json N)} :
    HoldsMembers p members ↔ ∀ member ∈ members, (∀ c ∈ member.1.toList, p c) ∧ Holds p member.2 := by
  induction members with
  | nil => exact iff_of_true trivial fun _ none => absurd none List.not_mem_nil
  | cons member members ih => rw [HoldsMembers, ih, List.forall_mem_cons, and_assoc]

/-- A condition that every character meets. -/
theorem holds_of_forall (all : ∀ c, p c) (value : Json N) : Holds p value := by
  induction value using ind with
  | text content => exact fun c _ => all c
  | list items ih => exact holdsItems_iff.mpr ih
  | object members ih => exact holdsMembers_iff.mpr fun member among => ⟨fun c _ => all c, ih member among⟩
  | _ => trivial

/-- A member set, of characters that meet the condition. -/
theorem HoldsMembers.set {members : List (String × Json N)} {key : String} {value : Json N}
    (holds : HoldsMembers p members) (named : ∀ c ∈ key.toList, p c) (held : Holds p value) :
    HoldsMembers p (Dict.set members key value) := by
  refine holdsMembers_iff.mpr fun member among => ?_
  rcases Dict.mem_of_mem_set among with rfl | before
  · exact ⟨named, held⟩
  · exact holdsMembers_iff.mp holds member before

/-- The characters of a frame. -/
def Frame.Holds (p : Char → Prop) : Frame N → Prop
  | .list items => HoldsItems p items
  | .object members key => HoldsMembers p members ∧ ∀ c ∈ key.toList, p c

/-- The characters of what a reader has read. -/
def Mode.Holds (p : Char → Prop) : Mode N → Prop
  | .key members => HoldsMembers p members
  | .keyText members reading => HoldsMembers p members ∧ ∀ c ∈ reading.read, p c
  | .colon members name => HoldsMembers p members ∧ ∀ c ∈ name.toList, p c
  | .text reading => ∀ c ∈ reading.read, p c
  | .done found => Json.Holds p found
  | _ => True

def Reader.Holds (p : Char → Prop) (reader : Reader N) : Prop :=
  reader.mode.Holds p ∧ ∀ frame ∈ reader.stack, frame.Holds p

/-! ### Two readers, on opposite sides of a quote -/

/-- Outside of a string. -/
def Reader.Outside (reader : Reader N) : Prop :=
  match reader.mode with
  | .text _ => False
  | .keyText _ _ => False
  | _ => True

/-- Inside of a string, and of no escape. -/
def Reader.InString (reader : Reader N) : Prop :=
  match reader.mode with
  | .text reading => reading = .of reading.read
  | .keyText _ reading => reading = .of reading.read
  | _ => False

/-- **One inside of a string and the other outside.** -/
def Crossed (whole piece : Reader N) : Prop :=
  (whole.InString ∧ piece.Outside) ∨ (whole.Outside ∧ piece.InString)

variable [Numeral N] {reader reader' whole whole' piece piece' : Reader N} {stack : List (Frame N)}
  {value : Json N} {c : Char}

/-- What a reader outside of a string takes: no backslash, and a quote brings it inside of one. -/
def Turns (c : Char) (reader : Reader N) : Prop :=
  c ≠ '\\' ∧ ((c = '"' ∧ reader.InString) ∨ (c ≠ '"' ∧ reader.Outside))

theorem turns_of_plain (quote : c ≠ '"') (backslash : c ≠ '\\') (outside : reader.Outside) : Turns c reader :=
  ⟨backslash, Or.inr ⟨quote, outside⟩⟩

theorem turns_of_blank (blank : isBlank c = true) (outside : reader.Outside) : Turns c reader := by
  refine turns_of_plain ?_ ?_ outside
  · rintro rfl
    cases blank
  · rintro rfl
    cases blank

theorem turns_of_word (word : isWord c = true) (outside : reader.Outside) : Turns c reader := by
  refine turns_of_plain ?_ ?_ outside
  · rintro rfl
    exact absurd word (by decide)
  · rintro rfl
    exact absurd word (by decide)

theorem turns_follow (next : follow value stack c = some reader) : Turns c reader := by
  unfold follow at next
  split at next
  · next blank => exact Option.some.inj next ▸ turns_of_blank blank trivial
  · cases stack with
    | nil => cases next
    | cons frame rest =>
      cases frame with
      | list items =>
        simp only at next
        split_ifs at next with comma bracket
        · subst comma
          exact Option.some.inj next ▸ turns_of_plain (by decide) (by decide) trivial
        · subst bracket
          exact Option.some.inj next ▸ turns_of_plain (by decide) (by decide) trivial
      | object members key =>
        simp only at next
        split_ifs at next with comma brace
        · subst comma
          exact Option.some.inj next ▸ turns_of_plain (by decide) (by decide) trivial
        · subst brace
          exact Option.some.inj next ▸ turns_of_plain (by decide) (by decide) trivial

theorem turns_begin (next : begin stack c = some reader) : Turns c reader := by
  unfold begin at next
  split_ifs at next with blank quote bracket brace word
  all_goals obtain rfl := Option.some.inj next
  · exact turns_of_blank blank trivial
  · subst quote
    exact ⟨by decide, Or.inl ⟨rfl, rfl⟩⟩
  · subst bracket
    exact turns_of_plain (by decide) (by decide) trivial
  · subst brace
    exact turns_of_plain (by decide) (by decide) trivial
  · exact turns_of_word word trivial

/-- **A reader outside of a string.** -/
theorem Reader.Outside.next (outside : reader.Outside) (next : reader.next c = some reader') :
    Turns c reader' := by
  obtain ⟨mode, stack⟩ := reader
  cases mode with
  | value => exact turns_begin next
  | firstItem =>
    simp only [Reader.next] at next
    split_ifs at next with blank bracket
    · exact Option.some.inj next ▸ turns_of_blank blank trivial
    · subst bracket
      exact Option.some.inj next ▸ turns_of_plain (by decide) (by decide) trivial
    · exact turns_begin next
  | firstKey =>
    simp only [Reader.next] at next
    split_ifs at next with blank brace quote
    · exact Option.some.inj next ▸ turns_of_blank blank trivial
    · subst brace
      exact Option.some.inj next ▸ turns_of_plain (by decide) (by decide) trivial
    · subst quote
      exact Option.some.inj next ▸ ⟨by decide, Or.inl ⟨rfl, rfl⟩⟩
  | key members =>
    simp only [Reader.next] at next
    split_ifs at next with blank quote
    · exact Option.some.inj next ▸ turns_of_blank blank trivial
    · subst quote
      exact Option.some.inj next ▸ ⟨by decide, Or.inl ⟨rfl, rfl⟩⟩
  | colon members key =>
    simp only [Reader.next] at next
    split_ifs at next with blank colon
    · exact Option.some.inj next ▸ turns_of_blank blank trivial
    · subst colon
      exact Option.some.inj next ▸ turns_of_plain (by decide) (by decide) trivial
  | word read =>
    simp only [Reader.next] at next
    split_ifs at next with word
    · exact Option.some.inj next ▸ turns_of_word word trivial
    · obtain ⟨value, -, follows⟩ := Option.bind_eq_some_iff.mp next
      exact turns_follow follows
  | done value => exact turns_follow next
  | text reading => exact outside.elim
  | keyText members reading => exact outside.elim

/-- A character of a string that is no backslash. -/
theorem Reading.next_of {read : List Char} {reading : Reading} (plain : c ≠ '\\')
    (next : Reading.next (.of read) c = some reading) : c ≠ '"' ∧ reading = .of (read ++ [c]) := by
  by_cases special : c = '"' ∨ c < ' ' ∨ (none : Option ℕ).isSome = true
  · have refused : Reading.next (.of read) c = none := (if_neg plain).trans (if_pos special)
    rw [refused] at next
    cases next
  · have taken : Reading.next (.of read) c = some (.of (read ++ [c])) := (if_neg plain).trans (if_neg special)
    rw [taken] at next
    exact ⟨fun quote => special (Or.inl quote), (Option.some.inj next).symm⟩

/-- **A reader inside of a string**, at a character that is no backslash. -/
theorem Reader.InString.next (inside : reader.InString) (plain : c ≠ '\\')
    (next : reader.next c = some reader') :
    (c = '"' ∧ reader'.Outside) ∨ (c ≠ '"' ∧ reader'.InString) := by
  obtain ⟨mode, stack⟩ := reader
  cases mode with
  | text reading =>
    simp only [Reader.next] at next
    split_ifs at next with quote
    · exact Option.some.inj next ▸ Or.inl ⟨quote.1, trivial⟩
    · obtain ⟨reading', takes, rfl⟩ := Option.map_eq_some_iff.mp next
      obtain ⟨other, rfl⟩ := Reading.next_of plain (inside ▸ takes)
      exact Or.inr ⟨other, rfl⟩
  | keyText members reading =>
    simp only [Reader.next] at next
    split_ifs at next with quote
    · exact Option.some.inj next ▸ Or.inl ⟨quote.1, trivial⟩
    · obtain ⟨reading', takes, rfl⟩ := Option.map_eq_some_iff.mp next
      obtain ⟨other, rfl⟩ := Reading.next_of plain (inside ▸ takes)
      exact Or.inr ⟨other, rfl⟩
  | _ => exact inside.elim

/-- **Each quote changes the side of both.** -/
theorem Crossed.next (crossed : Crossed whole piece) (next : whole.next c = some whole')
    (next' : piece.next c = some piece') : c ≠ '\\' ∧ Crossed whole' piece' := by
  rcases crossed with ⟨inside, outside⟩ | ⟨outside, inside⟩
  · obtain ⟨plain, turned⟩ := outside.next next'
    refine ⟨plain, ?_⟩
    rcases inside.next plain next with ⟨quote, left⟩ | ⟨other, stays⟩
    · exact Or.inr ⟨left, (turned.resolve_right fun both => both.1 quote).2⟩
    · exact Or.inl ⟨stays, (turned.resolve_left fun both => other both.1).2⟩
  · obtain ⟨plain, turned⟩ := outside.next next
    refine ⟨plain, ?_⟩
    rcases inside.next plain next' with ⟨quote, left⟩ | ⟨other, stays⟩
    · exact Or.inl ⟨(turned.resolve_right fun both => both.1 quote).2, left⟩
    · exact Or.inr ⟨(turned.resolve_left fun both => other both.1).2, stays⟩

/-! ### What a piece is read as -/

theorem holds_ofWord {word : List Char} (stands : ofWord word = some value) : Holds p value := by
  unfold ofWord at stands
  split_ifs at stands
  · exact Option.some.inj stands ▸ trivial
  · exact Option.some.inj stands ▸ trivial
  · exact Option.some.inj stands ▸ trivial
  · obtain ⟨number, -, rfl⟩ := Option.map_eq_some_iff.mp stands
    trivial

theorem holds_follow (held : Holds p value) (frames : ∀ frame ∈ stack, frame.Holds p)
    (next : follow value stack c = some reader) : reader.Holds p := by
  unfold follow at next
  split at next
  · exact Option.some.inj next ▸ ⟨held, frames⟩
  · cases stack with
    | nil => cases next
    | cons frame rest =>
      obtain ⟨first, later⟩ := List.forall_mem_cons.mp frames
      cases frame with
      | list items =>
        have all : HoldsItems p (items ++ [value]) := holdsItems_iff.mpr fun item member => by
          rcases List.mem_append.mp member with before | last
          · exact holdsItems_iff.mp first item before
          · exact List.mem_singleton.mp last ▸ held
        simp only at next
        split_ifs at next
        · exact Option.some.inj next ▸ ⟨trivial, List.forall_mem_cons.mpr ⟨all, later⟩⟩
        · exact Option.some.inj next ▸ ⟨all, later⟩
      | object members key =>
        have all := HoldsMembers.set first.1 first.2 held
        simp only at next
        split_ifs at next
        · exact Option.some.inj next ▸ ⟨all, later⟩
        · exact Option.some.inj next ▸ ⟨all, later⟩

theorem holds_begin (frames : ∀ frame ∈ stack, frame.Holds p) (next : begin stack c = some reader) :
    reader.Holds p := by
  unfold begin at next
  split_ifs at next
  all_goals obtain rfl := Option.some.inj next
  · exact ⟨trivial, frames⟩
  · exact ⟨fun _ none => absurd none List.not_mem_nil, frames⟩
  · exact ⟨trivial, frames⟩
  · exact ⟨trivial, frames⟩
  · exact ⟨trivial, frames⟩

theorem Reader.Holds.outside (holds : reader.Holds p) (outside : reader.Outside)
    (next : reader.next c = some reader') : reader'.Holds p := by
  obtain ⟨mode, stack⟩ := reader
  obtain ⟨held, frames⟩ := holds
  cases mode with
  | value => exact holds_begin frames next
  | firstItem =>
    simp only [Reader.next] at next
    split_ifs at next
    · exact Option.some.inj next ▸ ⟨trivial, frames⟩
    · exact Option.some.inj next ▸ ⟨trivial, frames⟩
    · have opened : Frame.Holds p (.list [] : Frame N) := trivial
      exact holds_begin (List.forall_mem_cons.mpr ⟨opened, frames⟩) next
  | firstKey =>
    simp only [Reader.next] at next
    split_ifs at next
    · exact Option.some.inj next ▸ ⟨trivial, frames⟩
    · exact Option.some.inj next ▸ ⟨trivial, frames⟩
    · exact Option.some.inj next ▸ ⟨⟨trivial, fun _ none => absurd none List.not_mem_nil⟩, frames⟩
  | key members =>
    simp only [Reader.next] at next
    split_ifs at next
    · exact Option.some.inj next ▸ ⟨held, frames⟩
    · exact Option.some.inj next ▸ ⟨⟨held, fun _ none => absurd none List.not_mem_nil⟩, frames⟩
  | colon members key =>
    simp only [Reader.next] at next
    split_ifs at next
    · exact Option.some.inj next ▸ ⟨held, frames⟩
    · exact Option.some.inj next ▸ ⟨trivial, List.forall_mem_cons.mpr ⟨held, frames⟩⟩
  | word read =>
    simp only [Reader.next] at next
    split_ifs at next
    · exact Option.some.inj next ▸ ⟨trivial, frames⟩
    · obtain ⟨value, stands, follows⟩ := Option.bind_eq_some_iff.mp next
      exact holds_follow (holds_ofWord stands) frames follows
  | done value => exact holds_follow held frames next
  | text reading => exact outside.elim
  | keyText members reading => exact outside.elim

theorem Reader.Holds.inString (holds : reader.Holds p) (inside : reader.InString) (plain : c ≠ '\\')
    (meets : p c) (next : reader.next c = some reader') : reader'.Holds p := by
  obtain ⟨mode, stack⟩ := reader
  obtain ⟨held, frames⟩ := holds
  have longer : ∀ read : List Char, (∀ c ∈ read, p c) → ∀ d ∈ read ++ [c], p d := fun read all d member => by
    rcases List.mem_append.mp member with before | last
    · exact all d before
    · exact List.mem_singleton.mp last ▸ meets
  cases mode with
  | text reading =>
    simp only [Reader.next] at next
    split_ifs at next
    · refine Option.some.inj next ▸ ⟨fun d member => held d ?_, frames⟩
      rwa [String.toList_ofList] at member
    · obtain ⟨reading', takes, rfl⟩ := Option.map_eq_some_iff.mp next
      obtain ⟨-, rfl⟩ := Reading.next_of plain (inside ▸ takes)
      exact ⟨longer _ held, frames⟩
  | keyText members reading =>
    simp only [Reader.next] at next
    split_ifs at next
    · refine Option.some.inj next ▸ ⟨⟨held.1, fun d member => held.2 d ?_⟩, frames⟩
      rwa [String.toList_ofList] at member
    · obtain ⟨reading', takes, rfl⟩ := Option.map_eq_some_iff.mp next
      obtain ⟨-, rfl⟩ := Reading.next_of plain (inside ▸ takes)
      exact ⟨⟨held.1, longer _ held.2⟩, frames⟩
  | _ => exact inside.elim

/-- Two readers on opposite sides, along a text. -/
theorem Crossed.run {text : List Char} (crossed : Crossed whole piece) (goes : whole.run text = some whole')
    (reads : piece.run text = some piece') : Crossed whole' piece' := by
  induction text generalizing whole piece with
  | nil =>
    obtain rfl := Option.some.inj goes
    exact Option.some.inj reads ▸ crossed
  | cons c text ih =>
    rw [run_cons] at goes reads
    obtain ⟨middle, step, goes⟩ := Option.bind_eq_some_iff.mp goes
    obtain ⟨middle', step', reads⟩ := Option.bind_eq_some_iff.mp reads
    exact ih (crossed.next step step').2 goes reads

/-- What the one reads are characters of the text. -/
theorem Crossed.holds {text : List Char} (crossed : Crossed whole piece) (goes : whole.run text = some whole')
    (reads : piece.run text = some piece') (holds : piece.Holds p) (meets : ∀ c ∈ text, p c) :
    piece'.Holds p := by
  induction text generalizing whole piece with
  | nil => exact Option.some.inj reads ▸ holds
  | cons c text ih =>
    obtain ⟨first, later⟩ := List.forall_mem_cons.mp meets
    rw [run_cons] at goes reads
    obtain ⟨middle, step, goes⟩ := Option.bind_eq_some_iff.mp goes
    obtain ⟨middle', step', reads⟩ := Option.bind_eq_some_iff.mp reads
    obtain ⟨plain, crossed'⟩ := crossed.next step step'
    refine ih crossed' goes reads ?_ later
    rcases crossed with ⟨-, outside⟩ | ⟨-, inside⟩
    · exact holds.outside outside step'
    · exact holds.inString inside plain first step'

/-- **A piece from inside of a string** is read as nothing, or as a value of its own characters. -/
theorem holds_of_piece {text : List Char} (inside : whole.InString) (goes : whole.run text = some whole')
    (reads : loads text = some value) (meets : ∀ c ∈ text, p c) : Holds p value := by
  obtain ⟨reader, ran, ends⟩ := Option.bind_eq_some_iff.mp reads
  have begins : (Reader.start : Reader N).Holds p := ⟨trivial, fun _ none => absurd none List.not_mem_nil⟩
  have outside : (Reader.start : Reader N).Outside := trivial
  have holds := Crossed.holds (Or.inl ⟨inside, outside⟩) goes ran begins meets
  obtain ⟨mode, stack⟩ := reader
  cases stack with
  | cons frame stack => cases ends
  | nil =>
    cases mode with
    | done found => exact Option.some.inj ends ▸ holds.1
    | word read => exact holds_ofWord ends
    | _ => cases ends

/-! ### Characters that stand in strings only -/

/-- The characters of a text outside of its strings, and the quote. -/
def isMark (c : Char) : Bool := isWord c || c ∈ ['"', '[', ']', '\x7b', '\x7d', ',', ':']

/-- A character that stands in a string, not escaped, if it stands anywhere. -/
def isForeign (c : Char) : Bool := !(isMark c || isBlank c || c = '\\')

/-- A mark is a printable character of ASCII. -/
theorem toNat_of_mark (mark : isMark c = true) : 0x20 ≤ c.toNat ∧ c.toNat < 0x7F := by
  have between : ∀ first last : Char, first.val ≤ c.val → c.val ≤ last.val →
      first.toNat ≤ c.toNat ∧ c.toNat ≤ last.toNat := fun first last least most =>
    ⟨UInt32.le_iff_toNat_le.mp least, UInt32.le_iff_toNat_le.mp most⟩
  have digit : c.isDigit = true → 0x20 ≤ c.toNat ∧ c.toNat < 0x7F := fun digit => by
    obtain ⟨least, most⟩ := (Bool.and_eq_true _ _).mp digit
    have bounds := between '0' '9' (of_decide_eq_true least) (of_decide_eq_true most)
    exact ⟨le_trans (by decide) bounds.1, lt_of_le_of_lt bounds.2 (by decide)⟩
  have listed : ∀ marks : List Char, (marks.all fun d => decide (0x20 ≤ d.toNat ∧ d.toNat < 0x7F)) = true →
      c ∈ marks → 0x20 ≤ c.toNat ∧ c.toNat < 0x7F := fun marks all member =>
    of_decide_eq_true (List.all_eq_true.mp all c member)
  unfold isMark isWord isNumeral Char.isAlphanum Char.isAlpha at mark
  simp only [Bool.or_eq_true, decide_eq_true_eq] at mark
  rcases mark with ((((upper | lower) | decimal) | (decimal | sign)) | bracket)
  · obtain ⟨least, most⟩ := of_decide_eq_true upper
    have bounds := between 'A' 'Z' least most
    exact ⟨le_trans (by decide) bounds.1, lt_of_le_of_lt bounds.2 (by decide)⟩
  · obtain ⟨least, most⟩ := (Bool.and_eq_true _ _).mp lower
    have bounds := between 'a' 'z' (of_decide_eq_true least) (of_decide_eq_true most)
    exact ⟨le_trans (by decide) bounds.1, lt_of_le_of_lt bounds.2 (by decide)⟩
  · exact digit decimal
  · exact digit decimal
  · exact listed _ (by decide) sign
  · exact listed _ (by decide) bracket

theorem ne_of_foreign (foreign : isForeign c = true) :
    isBlank c = false ∧ isWord c = false ∧ ∀ d ∈ ['"', '[', ']', '\x7b', '\x7d', ',', ':', '\\'], c ≠ d := by
  unfold isForeign isMark at foreign
  simp only [Bool.not_eq_true', Bool.or_eq_false_iff, decide_eq_false_iff_not] at foreign
  obtain ⟨⟨⟨word, marks⟩, blank⟩, backslash⟩ := foreign
  refine ⟨blank, word, fun d member same => ?_⟩
  subst same
  rcases List.mem_append.mp (show c ∈ ['"', '[', ']', '\x7b', '\x7d', ',', ':'] ++ ['\\'] from member) with among | last
  · exact marks among
  · exact backslash (List.mem_singleton.mp last)

theorem follow_foreign (foreign : isForeign c = true) : follow value stack c = none := by
  obtain ⟨blank, -, other⟩ := ne_of_foreign foreign
  unfold follow
  rw [if_neg (Bool.eq_false_iff.mp blank)]
  cases stack with
  | nil => rfl
  | cons frame rest =>
    cases frame with
    | list items =>
      simp only
      rw [if_neg (other ',' (by decide)), if_neg (other ']' (by decide))]
    | object members key =>
      simp only
      rw [if_neg (other ',' (by decide)), if_neg (other '\x7d' (by decide))]

theorem begin_foreign (foreign : isForeign c = true) : begin stack c = (none : Option (Reader N)) := by
  obtain ⟨blank, word, other⟩ := ne_of_foreign foreign
  unfold begin
  rw [if_neg (Bool.eq_false_iff.mp blank), if_neg (other '"' (by decide)), if_neg (other '[' (by decide)),
    if_neg (other '\x7b' (by decide)), if_neg (Bool.eq_false_iff.mp word)]

/-- A hexadecimal digit is a character of words. -/
theorem isWord_of_hexValue {value : ℕ} (digit : hexValue c = some value) : isWord c = true := by
  have alphanum : c.isAlphanum = true := by
    unfold hexValue at digit
    split_ifs at digit with decimal lower upper
    · exact Bool.or_eq_true_iff.mpr (Or.inr decimal)
    · have last : c.isLower = true :=
        (Bool.and_eq_true _ _).mpr ⟨decide_eq_true lower.1, decide_eq_true (le_trans lower.2 (by decide : 'f' ≤ 'z'))⟩
      exact Bool.or_eq_true_iff.mpr (Or.inl (Bool.or_eq_true_iff.mpr (Or.inr last)))
    · have last : c.isUpper = true :=
        decide_eq_true ⟨upper.1, le_trans upper.2 (by decide : 'F' ≤ 'Z')⟩
      exact Bool.or_eq_true_iff.mpr (Or.inl (Bool.or_eq_true_iff.mpr (Or.inl last)))
  exact Bool.or_eq_true_iff.mpr (Or.inl alphanum)

/-- After `\u` comes a hexadecimal digit. -/
theorem Reading.next_unicode {read : List Char} {high : Option ℕ} {digits : List ℕ} (other : hexValue c = none) :
    Reading.next ⟨read, high, .unicode digits⟩ c = none := by
  unfold Reading.next
  split
  · next same => cases same
  · next same => cases same
  · rw [other]
    rfl
  · rw [other]
    rfl

theorem Reading.next_foreign {reading reading' : Reading} (foreign : isForeign c = true)
    (next : reading.next c = some reading') : reading' = .of reading'.read := by
  obtain ⟨-, word, other⟩ := ne_of_foreign foreign
  obtain ⟨read, high, escape⟩ := reading
  have digit : hexValue c = none := by
    cases found : hexValue c with
    | none => rfl
    | some value => exact absurd (isWord_of_hexValue found) (Bool.eq_false_iff.mp word)
  cases escape with
  | plain =>
    simp only [Reading.next, if_neg (other '\\' (by decide))] at next
    split_ifs at next with special
    cases high with
    | none => exact Option.some.inj next ▸ rfl
    | some high => exact absurd (Or.inr (Or.inr rfl)) special
  | backslash =>
    have letter : c ≠ 'u' := by
      rintro rfl
      exact absurd word (by decide)
    simp only [Reading.next, if_neg letter] at next
    split_ifs at next
    obtain ⟨char, -, rfl⟩ := Option.map_eq_some_iff.mp next
    rfl
  | unicode digits => cases (Reading.next_unicode digit).symm.trans next

/-- **After a character that stands in strings only**, a reader is inside of one. -/
theorem inString_of_foreign (foreign : isForeign c = true) (next : reader.next c = some reader') :
    reader'.InString := by
  obtain ⟨blank, word, other⟩ := ne_of_foreign foreign
  obtain ⟨mode, stack⟩ := reader
  have quote : ∀ reading : Reading, ¬ (c = '"' ∧ reading.ends) := fun _ both => other '"' (by decide) both.1
  cases mode with
  | value => cases (begin_foreign foreign).symm.trans next
  | firstItem =>
    simp only [Reader.next, if_neg (Bool.eq_false_iff.mp blank), if_neg (other ']' (by decide)),
      begin_foreign foreign] at next
    cases next
  | firstKey =>
    simp only [Reader.next, if_neg (Bool.eq_false_iff.mp blank), if_neg (other '\x7d' (by decide)),
      if_neg (other '"' (by decide))] at next
    cases next
  | key members =>
    simp only [Reader.next, if_neg (Bool.eq_false_iff.mp blank), if_neg (other '"' (by decide))] at next
    cases next
  | keyText members reading =>
    simp only [Reader.next, if_neg (quote reading)] at next
    obtain ⟨reading', takes, rfl⟩ := Option.map_eq_some_iff.mp next
    exact Reading.next_foreign foreign takes
  | colon members key =>
    simp only [Reader.next, if_neg (Bool.eq_false_iff.mp blank), if_neg (other ':' (by decide))] at next
    cases next
  | text reading =>
    simp only [Reader.next, if_neg (quote reading)] at next
    obtain ⟨reading', takes, rfl⟩ := Option.map_eq_some_iff.mp next
    exact Reading.next_foreign foreign takes
  | word read =>
    simp only [Reader.next, if_neg (Bool.eq_false_iff.mp word)] at next
    obtain ⟨value, -, follows⟩ := Option.bind_eq_some_iff.mp next
    cases (follow_foreign foreign).symm.trans follows
  | done value => cases (follow_foreign foreign).symm.trans next

/-- **A text that ends with such a character is not read.** -/
theorem loads_eq_none_of_foreign {text : List Char} (foreign : isForeign c = true) :
    loads (N := N) (text ++ [c]) = none := by
  by_contra reads
  obtain ⟨value, reads⟩ := Option.ne_none_iff_exists'.mp reads
  obtain ⟨reader, ran, ends⟩ := Option.bind_eq_some_iff.mp reads
  rw [run_append] at ran
  obtain ⟨before, -, last⟩ := Option.bind_eq_some_iff.mp ran
  obtain ⟨after, next, same⟩ := Option.bind_eq_some_iff.mp (run_cons.symm.trans last)
  obtain rfl := Option.some.inj same
  have inside := inString_of_foreign foreign next
  obtain ⟨mode, stack⟩ := after
  cases stack with
  | cons frame stack => cases ends
  | nil =>
    cases mode with
    | done found => exact inside
    | word read => exact inside
    | _ => cases ends

/-! ### An object after a text cut short -/

/-- A brace in a string. -/
theorem Reading.next_brace {reading reading' : Reading} (next : reading.next '\x7b' = some reading') :
    reading' = .of reading'.read := by
  obtain ⟨read, high, escape⟩ := reading
  cases escape with
  | plain =>
    cases high with
    | none => exact Option.some.inj next ▸ rfl
    | some high => cases next
  | backslash => cases high <;> cases next
  | unicode digits => cases (Reading.next_unicode rfl).symm.trans next

/-- A string that is not closed is no value. -/
theorem Reader.InString.result (inside : reader.InString) : reader.result = none := by
  obtain ⟨mode, stack⟩ := reader
  cases mode with
  | text reading => cases stack <;> rfl
  | keyText members reading => cases stack <;> rfl
  | _ => exact inside.elim

theorem not_inString_of_outside (outside : reader.Outside) : ¬ reader.InString := by
  obtain ⟨mode, stack⟩ := reader
  cases mode with
  | text reading => exact outside.elim
  | keyText members reading => exact outside.elim
  | _ => exact id

theorem Ready.outside (ready : Ready value stack reader) : reader.Outside := by
  rcases ready with rfl | ⟨word, rfl, -⟩
  · trivial
  · trivial

/-- A value read inside of a list or an object is not all of a text. -/
theorem Ready.result_nested {frame : Frame N} (ready : Ready value (frame :: stack) reader) :
    reader.result = none := by
  rcases ready with rfl | ⟨word, rfl, -⟩
  · rfl
  · rfl

theorem follow_brace : follow value stack '\x7b' = none := by
  cases stack with
  | nil => rfl
  | cons frame rest => cases frame <;> rfl

/-- **An object after a text cut short is lost**: it is read inside of what the text has left open, or not
at all. -/
theorem loads_append_object {before : List Char} {members : List (String × Json N)} {style : Style}
    (ran : Reader.start.run before = some reader) (inside : reader.Inside)
    (distinct : keyed (.object members) = true) : loads (N := N) (before ++ style.dumps (.object members)) = none := by
  have reads := reads_written style (.object members) distinct 0
  by_contra found
  obtain ⟨value, found⟩ := Option.ne_none_iff_exists'.mp found
  obtain ⟨final, goes, ends⟩ := Option.bind_eq_some_iff.mp found
  rw [run_append, ran, Option.bind_some] at goes
  have unread : final.result ≠ none := fun none => by
    rw [none] at ends
    cases ends
  obtain ⟨middle, first, -⟩ := Option.bind_eq_some_iff.mp
    (run_cons.symm.trans (show reader.run ('\x7b' :: style.writeMembers 0 true members) = some final from goes))
  -- In a string, the brace is one of its characters, and the object is read from there.
  have crossing : ∀ {middle : Reader N}, reader.next '\x7b' = some middle → middle.InString → False := by
    intro middle next inString
    have rest : middle.run (style.writeMembers 0 true members) = some final := by
      have all : reader.run ('\x7b' :: style.writeMembers 0 true members) = some final := goes
      rwa [run_cons, next, Option.bind_some] at all
    obtain ⟨whole, read, ready⟩ := reads []
    have opened : Reader.run (⟨.firstKey, []⟩ : Reader N) (style.writeMembers 0 true members) = some whole := read
    have outside : (⟨.firstKey, []⟩ : Reader N).Outside := trivial
    rcases Crossed.run (Or.inr ⟨outside, inString⟩) opened rest with ⟨inside', -⟩ | ⟨-, inString'⟩
    · exact not_inString_of_outside ready.outside inside'
    · exact unread inString'.result
  obtain ⟨mode, stack⟩ := reader
  cases mode with
  | value =>
    obtain ⟨frame, stack, rfl⟩ := List.exists_cons_of_ne_nil inside
    obtain ⟨whole, read, ready⟩ := reads (frame :: stack)
    obtain rfl := Option.some.inj (read.symm.trans goes)
    exact unread ready.result_nested
  | firstItem =>
    obtain ⟨whole, read, ready⟩ := reads (.list [] :: stack)
    obtain rfl := Option.some.inj (read.symm.trans goes)
    exact unread ready.result_nested
  | firstKey => cases goes
  | key held => cases goes
  | colon held key => cases goes
  | word read =>
    obtain ⟨value, -, follows⟩ := Option.bind_eq_some_iff.mp first
    cases follow_brace.symm.trans follows
  | done value => cases follow_brace.symm.trans first
  | text reading =>
    obtain ⟨reading', takes, rfl⟩ := Option.map_eq_some_iff.mp first
    exact crossing first (Reading.next_brace takes)
  | keyText held reading =>
    obtain ⟨reading', takes, rfl⟩ := Option.map_eq_some_iff.mp first
    exact crossing first (Reading.next_brace takes)

/-! ### The characters of a written text -/

section Written

variable {style : Style} {q : Char → Prop} {depth : ℕ}

/-- What holds of the marks, of the blanks of a style and of the escapes of characters. -/
structure Writes (style : Style) (p q : Char → Prop) : Prop where
  marks : ∀ c, isMark c = true → q c
  blanks : ∀ depth, ∀ c ∈ style.opening depth ++ style.between depth ++ style.closing depth ++ style.colon, q c
  escapes : ∀ c, p c → ∀ d ∈ style.escape c, q d

variable (writes : Writes style p q)

include writes

theorem Writes.quoted {content : String} (holds : ∀ c ∈ content.toList, p c) :
    ∀ c ∈ style.quoted content, q c := by
  intro c member
  unfold Style.quoted at member
  rcases List.mem_append.mp member with before | last
  · rcases List.mem_cons.mp before with rfl | inside
    · exact writes.marks _ rfl
    · obtain ⟨d, among, escaped⟩ := List.mem_flatMap.mp inside
      exact writes.escapes d (holds d among) c escaped
  · exact List.mem_singleton.mp last ▸ writes.marks _ rfl

theorem Writes.start (first : Bool) :
    ∀ c ∈ (if first then style.opening depth else ',' :: style.between depth), q c := by
  intro c member
  cases first with
  | true =>
    exact writes.blanks depth c (List.mem_append_left _ (List.mem_append_left _ (List.mem_append_left _ member)))
  | false =>
    rcases List.mem_cons.mp member with rfl | between
    · exact writes.marks _ rfl
    · exact writes.blanks depth c (List.mem_append_left _ (List.mem_append_left _ (List.mem_append_right _ between)))

theorem Writes.stop (first : Bool) : ∀ c ∈ (if first then [] else style.closing depth), q c := by
  intro c member
  cases first with
  | true => exact absurd member List.not_mem_nil
  | false => exact writes.blanks depth c (List.mem_append_left _ (List.mem_append_right _ member))

theorem Writes.items {items : List (Json N)}
    (all : ∀ item ∈ items, ∀ depth, ∀ c ∈ style.write depth item, q c) (first : Bool) :
    ∀ c ∈ style.writeItems depth first items, q c := by
  induction items generalizing first with
  | nil =>
    intro c member
    rcases List.mem_append.mp member with blank | last
    · exact writes.stop first c blank
    · exact List.mem_singleton.mp last ▸ writes.marks _ rfl
  | cons item items ih =>
    obtain ⟨here, later⟩ := List.forall_mem_cons.mp all
    intro c member
    rcases List.mem_append.mp member with before | rest
    · rcases List.mem_append.mp before with blank | inside
      · exact writes.start first c blank
      · exact here (depth + 1) c inside
    · exact ih later false c rest

theorem Writes.members {members : List (String × Json N)}
    (all : ∀ member ∈ members, (∀ c ∈ member.1.toList, p c) ∧ ∀ depth, ∀ c ∈ style.write depth member.2, q c)
    (first : Bool) : ∀ c ∈ style.writeMembers depth first members, q c := by
  induction members generalizing first with
  | nil =>
    intro c member
    rcases List.mem_append.mp member with blank | last
    · exact writes.stop first c blank
    · exact List.mem_singleton.mp last ▸ writes.marks _ rfl
  | cons entry members ih =>
    obtain ⟨⟨named, here⟩, later⟩ := List.forall_mem_cons.mp all
    intro c member
    rcases List.mem_append.mp member with member | rest
    · rcases List.mem_append.mp member with member | inside
      · rcases List.mem_append.mp member with member | colon
        · rcases List.mem_append.mp member with blank | key
          · exact writes.start first c blank
          · exact writes.quoted named c key
        · rcases List.mem_cons.mp colon with rfl | blank
          · exact writes.marks _ rfl
          · exact writes.blanks depth c (List.mem_append_right _ blank)
      · exact here (depth + 1) c inside
    · exact ih later false c rest

/-- **The characters of a written text.** -/
theorem Writes.write (holds : Holds p value) (depth : ℕ) : ∀ c ∈ style.write depth value, q c := by
  have words : ∀ word : List Char, word.all isWord = true → ∀ c ∈ word, q c := fun word all c member =>
    writes.marks c (Bool.or_eq_true_iff.mpr (Or.inl (List.all_eq_true.mp all c member)))
  induction value using ind generalizing depth with
  | null => exact words "null".toList (by decide)
  | bool value =>
    cases value with
    | false => exact words "false".toList (by decide)
    | true => exact words "true".toList (by decide)
  | number value =>
    refine words (Numeral.text value) (List.all_eq_true.mpr fun c member => ?_)
    rw [isWord, List.all_eq_true.mp (Numeral.numeral value) c member, Bool.or_true]
  | text content => exact writes.quoted holds
  | list items ih =>
    refine List.forall_mem_cons.mpr ⟨writes.marks _ rfl, writes.items (fun item member => ?_) true⟩
    exact ih item member (holdsItems_iff.mp holds item member)
  | object members ih =>
    refine List.forall_mem_cons.mpr ⟨writes.marks _ rfl, writes.members (fun member among => ?_) true⟩
    exact (holdsMembers_iff.mp holds member among).imp_right (ih member among)

end Written

end Json

end SuiteCloud.Library
