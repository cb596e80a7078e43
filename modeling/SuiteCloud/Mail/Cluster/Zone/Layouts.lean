/-
**Every layout of a record is read alike.**

* `Flat`, `Grouped` — a record on one line, and in parentheses over any number of lines; `Spelling.oneLine`.
* `Flat.Clear`, `Grouped.Clear` — the layouts that the counts of quotes, the single spaces of `_drop_parens`
  and the space of `partition` do no harm to.
* `Flat.reads`, `Grouped.reads` — **both are read as a line of the record's fields**.
* `IsFile` — the lines of a zone file; `layouts_read_alike` — **its rows are those its records call for**.
-/

import Mathlib.Algebra.Ring.Int.Defs
import SuiteCloud.Mail.Cluster.Zone.Fields

namespace SuiteCloud.Mail.Cluster.Zone

open SuiteCloud.Library

/-! ## Lines -/

/-- **A piece of a line.** -/
inductive Piece
  | field (text : List Char)
  | gap (text : List Char)
  | opens
  | closes
  deriving DecidableEq

namespace Piece

def chars : Piece → List Char
  | field text => text
  | gap text => text
  | opens => ['(']
  | closes => [')']

/-- What is left without the parentheses of the layout. -/
def kept : Piece → List Char
  | field text => text
  | gap text => text
  | _ => []

def fields : Piece → List (List Char)
  | field text => [text]
  | _ => []

def depth : Piece → ℤ
  | opens => 1
  | closes => -1
  | _ => 0

def isGap : Piece → Bool
  | gap _ => true
  | _ => false

end Piece

def bodyOf (pieces : List Piece) : List Char := pieces.flatMap Piece.chars

def keptOf (pieces : List Piece) : List Char := pieces.flatMap Piece.kept

/-- **Gaps are blank, and no two fields touch**; whether a field ends where the pieces begin. -/
def Apart (touches : Bool) : List Piece → Prop
  | [] => True
  | .field _ :: rest => touches = false ∧ Apart true rest
  | .gap text :: rest => IsBlank text ∧ Apart false rest
  | _ :: rest => Apart touches rest

/-- **As quotes are counted**, the layout's parentheses are outside strings and the fields' are inside. -/
def Counted (quoted : Bool) : List Piece → Prop
  | [] => True
  | .field text :: rest => Sheltered ['(', ')'] quoted text ∧ Counted (flagAfter quoted text) rest
  | .gap _ :: rest => Counted quoted rest
  | _ :: rest => quoted = false ∧ Counted quoted rest

instance decidableApart (touches : Bool) : (pieces : List Piece) → Decidable (Apart touches pieces)
  | [] => .isTrue trivial
  | .field _ :: rest => have := decidableApart true rest; inferInstanceAs (Decidable (_ ∧ _))
  | .gap _ :: rest => have := decidableApart false rest; inferInstanceAs (Decidable (_ ∧ _))
  | .opens :: rest => decidableApart touches rest
  | .closes :: rest => decidableApart touches rest

instance decidableCounted (quoted : Bool) : (pieces : List Piece) → Decidable (Counted quoted pieces)
  | [] => .isTrue trivial
  | .field text :: rest =>
      have := decidableCounted (flagAfter quoted text) rest
      inferInstanceAs (Decidable (_ ∧ _))
  | .gap _ :: rest => decidableCounted quoted rest
  | .opens :: rest => have := decidableCounted quoted rest; inferInstanceAs (Decidable (_ ∧ _))
  | .closes :: rest => have := decidableCounted quoted rest; inferInstanceAs (Decidable (_ ∧ _))

/-- A comment, or none. -/
def IsComment (comment : List Char) : Prop := comment = [] ∨ comment.head? = some ';'

instance (comment : List Char) : Decidable (IsComment comment) := inferInstanceAs (Decidable (_ ∨ _))

/-- **A line of a record.** -/
structure Line where
  pieces : List Piece
  comment : List Char

namespace Line

def body (line : Line) : List Char := bodyOf line.pieces

def text (line : Line) : List Char := line.body ++ line.comment

def fields (line : Line) : List (List Char) := line.pieces.flatMap Piece.fields

/-- What it opens, less what it closes. -/
def depth (line : Line) : ℤ := (line.pieces.map Piece.depth).sum

def isBlank (line : Line) : Bool := line.pieces.all Piece.isGap

end Line

/-- **Lines in parentheses**, of which some are open before them: all are closed at the end of the last, and not
before. -/
inductive Closes : ℤ → List Line → Prop
  | blank {depth : ℤ} {line : Line} {rest : List Line} (blank : line.isBlank = true)
      (later : Closes depth rest) : Closes depth (line :: rest)
  | last {depth : ℤ} {line : Line} (written : line.isBlank = false) (closed : depth + line.depth = 0) :
      Closes depth [line]
  | inside {depth : ℤ} {line : Line} {rest : List Line} (written : line.isBlank = false)
      (opened : 0 < depth + line.depth) (later : Closes (depth + line.depth) rest) :
      Closes depth (line :: rest)

/-! ## Layouts -/

/-- **A record on one line.** -/
structure Flat (record : Record) extends Spelling record where
  front : List Char
  gap : List Char
  rdata : List Char
  tail : List Char
  comment : List Char
  headed : Spaced IsBlank toSpelling.head front
  apart : IsBlank gap
  spaced : Spaced IsBlank data rdata
  blanks : IsBlanks tail
  comments : IsComment comment

/-- **A record in parentheses**, over any number of lines. -/
structure Grouped (record : Record) extends Spelling record where
  lines : List Line
  shown : lines.flatMap Line.fields = toSpelling.fields
  apart : ∀ line ∈ lines, Apart false line.pieces
  comments : ∀ line ∈ lines, IsComment line.comment
  closes : Closes 0 lines
  grouped : ∃ line ∈ lines, .opens ∈ line.pieces

namespace Flat

variable {record : Record} (flat : Flat record)

def body : List Char := flat.front ++ flat.gap ++ flat.rdata

def line : List Char := flat.body ++ flat.tail ++ flat.comment

/-- **The reader is not misled.** No line ends inside it; the count of quotes has the semicolons of the strings
inside and the comment outside; where there is a parenthesis, the strings' are inside and their spaces single;
the data of an MX record are parted at a space. -/
structure Clear : Prop where
  whole : ∀ c ∈ flat.line, ¬ isLineBreak c
  semicolons : Sheltered [';'] false flat.body
  outside : flat.comment ≠ [] → flagAfter false flat.body = false
  parentheses : '(' ∈ flat.body → Sheltered ['(', ')'] false flat.body ∧ ∀ field ∈ flat.data, IsTight field
  parted : record.data.type = "MX".toList → ' ' ∈ flat.rdata

end Flat

/-- **The fields on one line**, with single spaces. -/
def Spelling.oneLine {record : Record} (spelling : Spelling record) : Flat record where
  toSpelling := spelling
  front := [' '].intercalate spelling.head
  gap := [' ']
  rdata := [' '].intercalate spelling.data
  tail := []
  comment := []
  headed := spaced_intercalate (List.cons_ne_nil _ _) isBlank_space
  apart := isBlank_space
  spaced := spaced_intercalate spelling.written.ne_nil isBlank_space
  blanks := List.forall_mem_nil _
  comments := Or.inl rfl

namespace Grouped

variable {record : Record} (grouped : Grouped record)

/-- **The reader is not misled**, on each line and where the lines are joined. -/
structure Clear : Prop where
  whole : ∀ line ∈ grouped.lines, ∀ c ∈ line.text, ¬ isLineBreak c
  semicolons : ∀ line ∈ grouped.lines, Sheltered [';'] false line.body
  outside : ∀ line ∈ grouped.lines, line.comment ≠ [] → flagAfter false line.body = false
  counted : ∀ line ∈ grouped.lines, Counted false line.pieces
  joined : Counted false (grouped.lines.flatMap Line.pieces)
  tight : ∀ field ∈ grouped.data, IsTight field

end Grouped

/-- **A layout of a record.** -/
inductive Layout (record : Record)
  | flat (layout : Flat record)
  | grouped (layout : Grouped record)

namespace Layout

variable {record : Record}

def lines : Layout record → List (List Char)
  | .flat layout => [layout.line]
  | .grouped layout => layout.lines.map Line.text

def Clear : Layout record → Prop
  | .flat layout => layout.Clear
  | .grouped layout => layout.Clear

end Layout

/-- **The lines of a zone file.** -/
inductive IsFile : List Record → List (List Char) → Prop
  | nil : IsFile [] []
  | nothing {records : List Record} {lines : List (List Char)} {gap comment : List Char}
      (blanks : IsBlanks gap) (comments : IsComment comment) (whole : ∀ c ∈ gap ++ comment, ¬ isLineBreak c)
      (later : IsFile records lines) : IsFile records ((gap ++ comment) :: lines)
  | record {record : Record} {records : List Record} {lines : List (List Char)} (layout : Layout record)
      (clear : layout.Clear) (later : IsFile records lines) :
      IsFile (record :: records) (layout.lines ++ lines)

/-- The text of the lines. -/
def fileText (newline : List Char) (lines : List (List Char)) : List Char := lines.flatMap (· ++ newline)

/-! ## What is read of pieces -/

variable {quoted touches : Bool} {pieces more : List Piece} {text rest comment : List Char} {record : Record}

theorem IsBlank.flagAfter {gap : List Char} (blank : IsBlank gap) : flagAfter quoted gap = quoted :=
  flagAfter_spaces blank.2.spaces

theorem counted_append (apart : Apart touches pieces) :
    Counted quoted (pieces ++ more) ↔
      Counted quoted pieces ∧ Counted (flagAfter quoted (bodyOf pieces)) more := by
  induction pieces generalizing quoted touches with
  | nil => exact ⟨fun counted => ⟨trivial, counted⟩, And.right⟩
  | cons piece pieces ih =>
    rw [bodyOf, List.flatMap_cons, flagAfter_append]
    cases piece with
    | field text =>
      show (_ ∧ Counted (flagAfter quoted text) (pieces ++ more)) ↔ (_ ∧ _) ∧ _
      rw [ih apart.2, and_assoc]
      rfl
    | gap text =>
      rw [Piece.chars, apart.1.flagAfter]
      exact ih apart.2
    | opens =>
      show (_ ∧ Counted quoted (pieces ++ more)) ↔ (_ ∧ _) ∧ _
      rw [ih (show Apart touches pieces from apart), and_assoc]
      rfl
    | closes =>
      show (_ ∧ Counted quoted (pieces ++ more)) ↔ (_ ∧ _) ∧ _
      rw [ih (show Apart touches pieces from apart), and_assoc]
      rfl

theorem parenBalance_body (apart : Apart touches pieces) (counted : Counted quoted pieces) :
    parenBalanceFrom quoted (bodyOf pieces) = (pieces.map Piece.depth).sum := by
  induction pieces generalizing quoted touches with
  | nil => rfl
  | cons piece pieces ih =>
    rw [bodyOf, List.flatMap_cons, parenBalanceFrom_append, List.map_cons, List.sum_cons]
    cases piece with
    | field text =>
      rw [Piece.chars, parenBalanceFrom_sheltered counted.1]
      exact congrArg (0 + ·) (ih apart.2 counted.2)
    | gap text =>
      have spaces := apart.1.2.spaces
      rw [Piece.chars, parenBalanceFrom_sheltered (sheltered_spaces spaces (List.subset_cons_self _ _)),
        apart.1.flagAfter]
      exact congrArg (0 + ·) (ih apart.2 counted)
    | opens =>
      obtain ⟨rfl, counted⟩ := counted
      exact congrArg (1 + ·) (ih (show Apart touches pieces from apart) counted)
    | closes =>
      obtain ⟨rfl, counted⟩ := counted
      exact congrArg (-1 + ·) (ih (show Apart touches pieces from apart) counted)

theorem withoutParens_body (apart : Apart touches pieces) (counted : Counted quoted pieces) :
    withoutParensFrom quoted (bodyOf pieces) = keptOf pieces := by
  induction pieces generalizing quoted touches with
  | nil => rfl
  | cons piece pieces ih =>
    rw [bodyOf, keptOf, List.flatMap_cons, List.flatMap_cons, withoutParensFrom_append]
    cases piece with
    | field text =>
      rw [Piece.chars, Piece.kept, withoutParensFrom_sheltered counted.1]
      exact congrArg (text ++ ·) (ih apart.2 counted.2)
    | gap text =>
      have spaces := apart.1.2.spaces
      rw [Piece.chars, Piece.kept,
        withoutParensFrom_sheltered (sheltered_spaces spaces (List.subset_cons_self _ _)), apart.1.flagAfter]
      exact congrArg (text ++ ·) (ih apart.2 counted)
    | opens =>
      obtain ⟨rfl, counted⟩ := counted
      exact ih (show Apart touches pieces from apart) counted
    | closes =>
      obtain ⟨rfl, counted⟩ := counted
      exact ih (show Apart touches pieces from apart) counted

theorem words_kept (apart : Apart touches pieces) (before : List Char)
    (touch : touches = false → before = []) :
    wordsOf (before ++ keptOf pieces) = wordsOf before ++ (pieces.flatMap Piece.fields).flatMap wordsOf := by
  induction pieces generalizing touches before with
  | nil =>
    rw [keptOf, List.flatMap_nil, List.append_nil]
    exact (List.append_nil _).symm
  | cons piece pieces ih =>
    rw [keptOf, List.flatMap_cons, List.flatMap_cons, List.flatMap_append]
    cases piece with
    | field text =>
      obtain ⟨rfl, apart⟩ := apart
      obtain rfl := touch rfl
      have words := ih apart text (fun none => absurd none (by decide))
      rw [List.nil_append, Piece.kept, Piece.fields, List.flatMap_singleton]
      exact words
    | gap text =>
      have words := ih apart.2 [] fun _ => rfl
      rw [Piece.kept, ← List.append_assoc, wordsOf_append_gap apart.1.isGap]
      exact congrArg (wordsOf before ++ ·) words
    | opens => exact ih (show Apart touches pieces from apart) before touch
    | closes => exact ih (show Apart touches pieces from apart) before touch

/-! ## The line of a layout -/

theorem stripComment_text {body tail : List Char} (semicolons : Sheltered [';'] false body)
    (blanks : IsBlanks tail) (comments : IsComment comment) (outside : comment ≠ [] → flagAfter false body = false) :
    stripComment (body ++ tail ++ comment) = body ++ tail := by
  have sheltered : Sheltered [';'] false (body ++ tail) :=
    sheltered_append.mpr ⟨semicolons, sheltered_spaces blanks.spaces (by simp)⟩
  have gone : stripCommentFrom (flagAfter false (body ++ tail)) comment = [] := by
    refine stripCommentFrom_comment comments fun some => ?_
    rw [flagAfter_append, flagAfter_spaces blanks.spaces, outside some]
  rw [stripComment, stripCommentFrom_append sheltered, gone, List.append_nil]

theorem logicalLinesFrom_cons {pending lines : List (List Char)} {depth : ℤ} {raw line : List Char}
    (read : stripped (stripComment raw) = line) (written : line ≠ []) :
    logicalLinesFrom pending depth (raw :: lines)
      = if 0 < depth + parenBalance line then
          logicalLinesFrom (pending ++ [line]) (depth + parenBalance line) lines
        else joinedLine (pending ++ [line]) :: logicalLinesFrom [] 0 lines := by
  rw [logicalLinesFrom]
  simp only [read, if_neg written]

theorem logicalLinesFrom_nothing {pending lines : List (List Char)} {depth : ℤ} {raw : List Char}
    (read : stripped (stripComment raw) = []) :
    logicalLinesFrom pending depth (raw :: lines) = logicalLinesFrom pending depth lines := by
  rw [logicalLinesFrom]
  simp only [read, if_true]

theorem isLine_of_words {spelling : Spelling record} {words : List (List Char)}
    (tight : ∀ field ∈ spelling.data, IsTight field) (same : words = spelling.fields.flatMap wordsOf) :
    spelling.IsLine ([' '].intercalate words) := by
  have all : ∀ field ∈ spelling.fields, IsTight field := by
    refine List.forall_mem_append.mpr ⟨fun field member => ?_, tight⟩
    exact isTight_word (spelling.plain_head field member).1 (spelling.plain_head field member).2
  rw [same, squeeze_fields all]
  exact spelling.isLine_intercalate

/-- **A record on one line** is read as a line of its fields. -/
theorem Flat.reads (flat : Flat record) (clear : flat.Clear) (lines : List (List Char)) :
    ∃ line, flat.toSpelling.IsLine line ∧
      logicalLinesFrom [] 0 (flat.line :: lines) = line :: logicalLinesFrom [] 0 lines := by
  have solid : IsSolid flat.body := isSolid_append (spaced_isSolid flat.toSpelling.isSolid_head flat.headed)
    (spaced_isSolid flat.toSpelling.isSolid_data flat.spaced)
  have read : stripped (stripComment flat.line) = flat.body := by
    rw [Flat.line, stripComment_text clear.semicolons flat.blanks flat.comments clear.outside]
    exact stripped_between (List.forall_mem_nil _) flat.blanks.spaces solid
  have closed : ¬ 0 < 0 + parenBalance flat.body := by
    by_cases holds : '(' ∈ flat.body
    · rw [parenBalance, parenBalanceFrom_sheltered (clear.parentheses holds).1]
      omega
    · have balance : parenBalance flat.body ≤ 0 := parenBalanceFrom_nonpos holds
      omega
  refine ⟨joinedLine [flat.body], ?_, ?_⟩
  · rw [joinedLine, List.intercalate_singleton]
    split
    · next holds =>
      obtain ⟨sheltered, tight⟩ := clear.parentheses holds
      rw [dropParens, withoutParensFrom_sheltered sheltered]
      refine isLine_of_words tight ?_
      rw [Flat.body, wordsOf_append_gap flat.apart.isGap,
        wordsOf_spaced (fun gap => IsBlank.isGap) flat.headed, wordsOf_spaced (fun gap => IsBlank.isGap) flat.spaced, Spelling.fields, List.flatMap_append]
    · exact ⟨flat.front, flat.gap, flat.rdata, flat.headed, flat.apart, flat.spaced, clear.parted, rfl⟩
  · rw [logicalLinesFrom_cons read solid.written, if_neg closed, List.nil_append]

/-! ### Lines in parentheses -/

/-- A line that is read piece by piece. -/
structure Line.Read (line : Line) : Prop where
  apart : Apart false line.pieces
  comments : IsComment line.comment
  semicolons : Sheltered [';'] false line.body
  outside : line.comment ≠ [] → flagAfter false line.body = false
  counted : Counted false line.pieces
  solid : ∀ field ∈ line.fields, IsSolid field

/-- What is kept of it. -/
def Line.core (line : Line) : List Char := stripped line.body

theorem Line.Read.stripped {line : Line} (read : line.Read) :
    stripped (stripComment line.text) = line.core := by
  have text : stripComment (line.body ++ [] ++ line.comment) = line.body ++ [] :=
    stripComment_text read.semicolons (List.forall_mem_nil _) read.comments read.outside
  rw [List.append_nil] at text
  rw [Line.text, text, Line.core]

theorem core_blank {line : Line} (apart : Apart touches line.pieces) (blank : line.isBlank = true) :
    line.core = [] := by
  refine stripped_spaces ?_
  obtain ⟨pieces, comment⟩ := line
  show ∀ c ∈ bodyOf pieces, isSpace c = true
  have gaps : pieces.all Piece.isGap = true := blank
  clear blank
  induction pieces generalizing touches with
  | nil => exact List.forall_mem_nil _
  | cons piece pieces ih =>
    rw [List.all_cons, Bool.and_eq_true] at gaps
    cases piece with
    | gap text =>
      rw [bodyOf, List.flatMap_cons]
      exact List.forall_mem_append.mpr ⟨apart.1.2.spaces, ih apart.2 gaps.2⟩
    | field text => exact absurd gaps.1 Bool.false_ne_true
    | opens => exact absurd gaps.1 Bool.false_ne_true
    | closes => exact absurd gaps.1 Bool.false_ne_true

theorem mem_core {line : Line} {piece : Piece} {c : Char} (member : piece ∈ line.pieces)
    (inside : c ∈ piece.chars) (plain : isSpace c = false) : c ∈ line.core :=
  mem_stripped plain (List.mem_flatMap.mpr ⟨piece, member, inside⟩)

theorem Line.Read.core_ne_nil {line : Line} (read : line.Read) (written : line.isBlank = false) :
    line.core ≠ [] := by
  obtain ⟨piece, member, other⟩ := List.all_eq_false.mp written
  have some : ∃ c ∈ piece.chars, isSpace c = false := by
    cases piece with
    | gap text => exact absurd rfl other
    | field text =>
      have solid := read.solid text (List.mem_flatMap.mpr ⟨_, member, List.mem_singleton_self _⟩)
      cases text with
      | nil => exact absurd rfl solid.written
      | cons d text => exact ⟨d, List.mem_cons_self, solid.first d rfl⟩
    | opens => exact ⟨'(', List.mem_singleton_self _, by decide⟩
    | closes => exact ⟨')', List.mem_singleton_self _, by decide⟩
  obtain ⟨c, inside, plain⟩ := some
  exact List.ne_nil_of_mem (mem_core member inside plain)

theorem Line.Read.parenBalance {line : Line} (read : line.Read) : parenBalance line.core = line.depth := by
  rw [Zone.parenBalance, Line.core, parenBalanceFrom_stripped]
  exact parenBalance_body read.apart read.counted

theorem logicalLinesFrom_closes {lines : List Line} {depth : ℤ} {pending : List (List Char)}
    (closes : Closes depth lines) (read : ∀ line ∈ lines, line.Read) (later : List (List Char)) :
    logicalLinesFrom pending depth (lines.map Line.text ++ later)
      = joinedLine (pending ++ (lines.map Line.core).filter (· ≠ [])) :: logicalLinesFrom [] 0 later := by
  induction closes generalizing pending with
  | @blank depth line rest blank closes ih =>
    obtain ⟨first, others⟩ := List.forall_mem_cons.mp read
    have none := core_blank first.apart blank
    rw [List.map_cons, List.map_cons, List.cons_append, logicalLinesFrom_nothing (first.stripped.trans none),
      List.filter_cons_of_neg (by simp [none]), ih others]
  | @last depth line written closed =>
    have first := read line List.mem_cons_self
    have some := first.core_ne_nil written
    have stays : ¬ 0 < depth + Zone.parenBalance line.core := by
      rw [first.parenBalance]
      omega
    rw [List.map_singleton, List.map_singleton, List.singleton_append,
      logicalLinesFrom_cons first.stripped some, if_neg stays, List.filter_cons_of_pos (by simp [some]),
      List.filter_nil]
  | @inside depth line rest written opened closes ih =>
    obtain ⟨first, others⟩ := List.forall_mem_cons.mp read
    have some := first.core_ne_nil written
    rw [List.map_cons, List.map_cons, List.cons_append, logicalLinesFrom_cons first.stripped some,
      first.parenBalance, if_pos opened, List.filter_cons_of_pos (by simp [some]), ih others,
      List.append_assoc, List.singleton_append]

/-- The words of some lines, with the quotes counted through them. -/
def wordsThrough (quoted : Bool) : List (List Char) → List (List Char)
  | [] => []
  | line :: lines => wordsOf (withoutParensFrom quoted line) ++ wordsThrough (flagAfter quoted line) lines

theorem words_intercalate (lines : List (List Char)) :
    wordsOf (withoutParensFrom quoted ([' '].intercalate lines)) = wordsThrough quoted lines := by
  induction lines generalizing quoted with
  | nil => rfl
  | cons line lines ih =>
    cases lines with
    | nil =>
      rw [List.intercalate_singleton, wordsThrough, wordsThrough, List.append_nil]
    | cons next lines =>
      have space : withoutParensFrom (flagAfter quoted line) [' '] = [' '] :=
        withoutParensFrom_sheltered (sheltered_plain (List.forall_mem_singleton.mpr (by decide)))
      have flag : flagAfter (flagAfter quoted line) [' '] = flagAfter quoted line :=
        flagAfter_plain (by decide)
      rw [List.intercalate_cons_cons, List.append_assoc, withoutParensFrom_append, withoutParensFrom_append,
        space, flag, ← List.append_assoc, wordsOf_append_gap isBlank_space.isGap, ih]
      rfl

theorem wordsThrough_filter (lines : List (List Char)) :
    wordsThrough quoted (lines.filter (· ≠ [])) = wordsThrough quoted lines := by
  induction lines generalizing quoted with
  | nil => rfl
  | cons line lines ih =>
    cases line with
    | nil => exact ih
    | cons c line =>
      rw [List.filter_cons_of_pos (by simp), wordsThrough, wordsThrough, ih]

theorem wordsThrough_core {lines : List Line} (apart : ∀ line ∈ lines, Apart false line.pieces)
    (counted : Counted quoted (lines.flatMap Line.pieces)) :
    wordsThrough quoted (lines.map Line.core) = (lines.flatMap Line.fields).flatMap wordsOf := by
  induction lines generalizing quoted with
  | nil => rfl
  | cons line lines ih =>
    obtain ⟨first, others⟩ := List.forall_mem_cons.mp apart
    rw [List.flatMap_cons] at counted
    obtain ⟨here, later⟩ := (counted_append first).mp counted
    have words : wordsOf (withoutParensFrom quoted line.core) = line.fields.flatMap wordsOf := by
      have kept := words_kept first [] fun _ => rfl
      rw [Line.core, words_stripped, Line.body, withoutParens_body first here]
      exact kept
    have flag : flagAfter quoted line.core = flagAfter quoted (bodyOf line.pieces) := flagAfter_stripped _
    rw [List.map_cons, wordsThrough, words, flag, ih others later, List.flatMap_cons, List.flatMap_append]

/-- **A record in parentheses** is read as a line of its fields. -/
theorem Grouped.reads (grouped : Grouped record) (clear : grouped.Clear) (lines : List (List Char)) :
    ∃ line, grouped.toSpelling.IsLine line ∧
      logicalLinesFrom [] 0 (grouped.lines.map Line.text ++ lines) = line :: logicalLinesFrom [] 0 lines := by
  have solid : ∀ field ∈ grouped.toSpelling.fields, IsSolid field :=
    List.forall_mem_append.mpr ⟨grouped.toSpelling.isSolid_head, grouped.toSpelling.isSolid_data⟩
  have read : ∀ line ∈ grouped.lines, line.Read := fun line member =>
    ⟨grouped.apart line member, grouped.comments line member, clear.semicolons line member,
      clear.outside line member, clear.counted line member, fun field among =>
        solid field (grouped.shown ▸ List.mem_flatMap.mpr ⟨line, member, among⟩)⟩
  have written : '(' ∈ [' '].intercalate ((grouped.lines.map Line.core).filter (· ≠ [])) := by
    obtain ⟨line, member, opens⟩ := grouped.grouped
    have inside : '(' ∈ line.core := mem_core opens (List.mem_singleton_self _) (by decide)
    refine mem_intercalate (List.mem_filter.mpr ⟨List.mem_map_of_mem member, ?_⟩) inside
    exact decide_eq_true (List.ne_nil_of_mem inside)
  refine ⟨_, ?_, logicalLinesFrom_closes grouped.closes read lines⟩
  rw [List.nil_append, joinedLine]
  simp only [if_pos written]
  rw [dropParens]
  refine isLine_of_words clear.tight ?_
  rw [words_intercalate, wordsThrough_filter, wordsThrough_core grouped.apart clear.joined, grouped.shown]

/-! ## Files -/

theorem Layout.reads (layout : Layout record) (clear : layout.Clear) (lines : List (List Char)) :
    ∃ (spelling : Spelling record) (line : List Char), spelling.IsLine line ∧
      logicalLinesFrom [] 0 (layout.lines ++ lines) = line :: logicalLinesFrom [] 0 lines := by
  cases layout with
  | flat layout =>
    obtain ⟨line, isLine, read⟩ := layout.reads clear lines
    exact ⟨layout.toSpelling, line, isLine, read⟩
  | grouped layout =>
    obtain ⟨line, isLine, read⟩ := layout.reads clear lines
    exact ⟨layout.toSpelling, line, isLine, read⟩

theorem Layout.whole (layout : Layout record) (clear : layout.Clear) :
    ∀ line ∈ layout.lines, ∀ c ∈ line, ¬ isLineBreak c := by
  cases layout with
  | flat layout => exact List.forall_mem_singleton.mpr (Flat.Clear.whole clear)
  | grouped layout => exact List.forall_mem_map.mpr (Grouped.Clear.whole clear)

variable {records : List Record} {lines : List (List Char)} {newline : List Char}

theorem IsFile.whole (file : IsFile records lines) : ∀ line ∈ lines, ∀ c ∈ line, ¬ isLineBreak c := by
  induction file with
  | nil => exact List.forall_mem_nil _
  | nothing blanks comments whole later ih => exact List.forall_mem_cons.mpr ⟨whole, ih⟩
  | record layout clear later ih => exact List.forall_mem_append.mpr ⟨layout.whole clear, ih⟩

/-- **The rows of the lines** are those the records call for. -/
theorem IsFile.rows (file : IsFile records lines) (lower : List Char → List Char)
    (domain spfInclude : List Char) (defaultTtl : ℕ) :
    (((logicalLinesFrom [] 0 lines).filter fun line => line.head? ≠ some '$').filterMap
        (matchRecordLine lower)).mapM (toRow domain spfInclude defaultTtl)
      = some (records.map (Record.row lower domain spfInclude defaultTtl)) := by
  induction file with
  | nil => rfl
  | @nothing records lines gap comment blanks comments whole later ih =>
    have gone : stripComment ([] ++ gap ++ comment) = [] ++ gap :=
      stripComment_text trivial blanks comments fun _ => rfl
    have read : stripped (stripComment (gap ++ comment)) = [] := by
      rw [List.nil_append] at gone
      rw [gone]
      exact stripped_spaces blanks.spaces
    rw [logicalLinesFrom_nothing read]
    exact ih
  | @record record records lines layout clear later ih =>
    obtain ⟨spelling, line, isLine, read⟩ := layout.reads clear lines
    obtain ⟨plain, found, matched, made⟩ := toRow_line lower domain spfInclude defaultTtl isLine
    rw [read, List.filter_cons_of_pos (by simp [plain]), List.filterMap_cons_some matched, List.mapM_cons,
      made, ih]
    rfl

theorem splitlines_fileText (ends : newline = ['\n'] ∨ newline = ['\r', '\n'])
    (whole : ∀ line ∈ lines, ∀ c ∈ line, ¬ isLineBreak c) : splitlines (fileText newline lines) = lines := by
  induction lines with
  | nil => rfl
  | cons line lines ih =>
    obtain ⟨first, others⟩ := List.forall_mem_cons.mp whole
    have later : splitlines (lines.flatMap (· ++ newline)) = lines := ih others
    rw [fileText, List.flatMap_cons, List.append_assoc]
    rcases ends with rfl | rfl
    · rw [List.singleton_append, splitlines_line first, later]
    · rw [List.cons_append, List.singleton_append, splitlines_line_return first, later]

theorem txtContent_value {host spfInclude value : List Char} {category : Category}
    (chosen : txtContent host text spfInclude = some (value, category)) (other : category ≠ .spf) :
    value = text := by
  have own {kind : Category} (same : some (text, kind) = some (value, category)) : value = text :=
    (Prod.mk.inj (Option.some.inj same)).1.symm
  unfold txtContent at chosen
  split at chosen
  · exact absurd (Prod.mk.inj (Option.some.inj chosen)).2.symm other
  · split at chosen
    · exact own chosen
    · split at chosen
      · exact own chosen
      · split at chosen
        · exact own chosen
        · split at chosen
          · exact own chosen
          · split at chosen
            · exact own chosen
            · cases chosen

theorem row_txt {record : Record} {row : Row} {lower : List Char → List Char} {domain spfInclude : List Char}
    {defaultTtl : ℕ} (told : record.data = .txt text)
    (calls : record.row lower domain spfInclude defaultTtl = some row) (other : row.category ≠ .spf) :
    row.value = text := by
  obtain ⟨host, -, calls⟩ := Option.bind_eq_some_iff.mp calls
  obtain ⟨content, found, calls⟩ := Option.bind_eq_some_iff.mp calls
  obtain ⟨group, -, made⟩ := Option.bind_eq_some_iff.mp calls
  obtain rfl := Option.some.inj made
  rw [told] at found
  obtain ⟨⟨value, category⟩, chosen, rfl⟩ := Option.map_eq_some_iff.mp found
  exact txtContent_value chosen other

theorem buildDomainRecords_file (lower : List Char → List Char) (domain spfInclude : List Char)
    (includeClientDiscovery : Bool) (defaultTtl : ℕ) (file : IsFile records lines)
    (ends : newline = ['\n'] ∨ newline = ['\r', '\n']) :
    buildDomainRecords lower domain (fileText newline lines) spfInclude includeClientDiscovery defaultTtl
      = some (handedOut includeClientDiscovery
          (records.filterMap (Record.row lower domain spfInclude defaultTtl))) := by
  have rows := file.rows lower domain spfInclude defaultTtl
  have called : (records.map (Record.row lower domain spfInclude defaultTtl)).reduceOption
      = records.filterMap (Record.row lower domain spfInclude defaultTtl) := by
    rw [List.reduceOption, List.filterMap_map]
    rfl
  rw [buildDomainRecords, parseZoneFile, logicalLines, splitlines_fileText ends file.whole]
  simp only [rows, Option.bind_eq_bind, Option.bind_some, called]

/-! ### The layouts -/

def dmarcRecord : Record where
  owner := "_dmarc.a.b.".toList
  ttl := none
  data := .txt "v=DMARC1; p=none (x)".toList
  named := ⟨by decide, forall_mem_of_all (by decide)⟩
  undirected := by decide
  targeted := trivial

/-- The text in two strings. -/
def dmarcSpelling : Spelling dmarcRecord where
  digits := none
  inClass := true
  data := ["v=DMARC1; ".toList, "p=none (x)".toList].map doubleQuoted
  ttl := .none
  written := .txt (List.cons_ne_nil _ _) (by decide)

/-- In parentheses, with a comment. -/
def dmarcGrouped : Grouped dmarcRecord where
  toSpelling := dmarcSpelling
  lines := [
    ⟨[.field "_dmarc.a.b.".toList, .gap ['\t'], .field "IN".toList, .gap [' ', ' '], .field "TXT".toList, .gap [' '],
      .opens], "; policy".toList⟩,
    ⟨[.gap ['\t'], .field (doubleQuoted "v=DMARC1; ".toList)], []⟩,
    ⟨[.gap ['\t'], .field (doubleQuoted "p=none (x)".toList), .gap [' '], .closes], []⟩]
  shown := by decide
  apart := by decide
  comments := by decide
  closes := .inside rfl (by decide) (.inside rfl (by decide) (.last rfl (by decide)))
  grouped := ⟨_, List.mem_cons_self, by decide⟩

/-- **Every layout of a record is read alike**, as the row the record calls for. The value of a TXT record is its
text, but for an SPF record of the domain itself, which is replaced. -/
theorem layouts_read_alike (lower : List Char → List Char) (domain spfInclude : List Char)
    (includeClientDiscovery : Bool) (defaultTtl : ℕ) {lines' : List (List Char)} {newline' : List Char}
    (file : IsFile records lines) (file' : IsFile records lines')
    (ends : newline = ['\n'] ∨ newline = ['\r', '\n']) (ends' : newline' = ['\n'] ∨ newline' = ['\r', '\n']) :
    buildDomainRecords lower domain (fileText newline lines) spfInclude includeClientDiscovery defaultTtl
        = buildDomainRecords lower domain (fileText newline' lines') spfInclude includeClientDiscovery
            defaultTtl ∧
      buildDomainRecords lower domain (fileText newline lines) spfInclude includeClientDiscovery defaultTtl
        = some (handedOut includeClientDiscovery
            (records.filterMap (Record.row lower domain spfInclude defaultTtl))) ∧
      ∀ record ∈ records, ∀ text row, record.data = .txt text →
        record.row lower domain spfInclude defaultTtl = some row → row.category ≠ .spf → row.value = text := by
  have rows := buildDomainRecords_file lower domain spfInclude includeClientDiscovery defaultTtl file ends
  have rows' := buildDomainRecords_file lower domain spfInclude includeClientDiscovery defaultTtl file' ends'
  exact ⟨rows.trans rows'.symm, rows, fun record _ text row => row_txt⟩

/-- A policy in parentheses, and on one line. -/
theorem layouts_read_alike_dmarc :
    buildDomainRecords id "a.b".toList
        "_dmarc.a.b.\tIN  TXT (; policy\n\t\"v=DMARC1; \"\n\t\"p=none (x)\" )\n".toList "c".toList false 300
      = buildDomainRecords id "a.b".toList
        "_dmarc.a.b. IN TXT \"v=DMARC1; \" \"p=none (x)\"\r\n".toList "c".toList false 300 := by
  have whole : ∀ line ∈ dmarcGrouped.lines, (line.text.all fun c => !isLineBreak c) = true := by decide
  have clear : dmarcGrouped.Clear :=
    ⟨fun line member c among => by simpa using List.all_eq_true.mp (whole line member) c among,
      by decide, by decide, by decide, by decide, by decide⟩
  have clear' : dmarcSpelling.oneLine.Clear :=
    ⟨forall_mem_of_all (by decide), by decide, by decide, by decide, by decide⟩
  have file : IsFile [dmarcRecord] _ := .record (.grouped dmarcGrouped) clear .nil
  have file' : IsFile [dmarcRecord] _ := .record (.flat dmarcSpelling.oneLine) clear' .nil
  exact (layouts_read_alike id "a.b".toList "c".toList false 300 file file' (Or.inl rfl) (Or.inr rfl)).1

/-- An SPF record of the domain itself is replaced. -/
theorem spf_replaced :
    (buildDomainRecords id "a.b".toList "a.b. IN TXT \"v=spf1 mx -all\"\n".toList "c".toList false 300).map
        (fun rows => rows.map Row.value) = some ["v=spf1 include:c -all".toList] ∧
      "v=spf1 include:c -all".toList ≠ "v=spf1 mx -all".toList := by
  decide

end SuiteCloud.Mail.Cluster.Zone
