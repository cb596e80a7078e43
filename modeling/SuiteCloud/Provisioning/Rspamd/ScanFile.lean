/-
**The outbound scans: the file the recorder writes and the shipper reads.**

`scan_recorder.lua` appends one JSON text and a new line for each message; a crash may cut a line short.
`get_records` of `ship_outbound_scans.py` splits the file with `str.splitlines` and skips what does not parse.
The writer escapes what is below U+0020 and leaves other characters as they are, and `splitlines` ends a line
at U+0085, U+2028 and U+2029 too.

* `getRecord`, `Line.text`, `fileText` — what is written.
* `getRecords` — what is read; `getRecords_fileText` — of each line, the pieces `splitlines` makes of it.
* `every_scan_shipped_iff` — **the complete objects are read, in order, exactly when** no such character
  stands in one of them.
* `scan_lost` — a message id that holds one.
-/

import SuiteCloud.Library.JsonPieces
import SuiteCloud.Library.Lines

set_option linter.unusedSectionVars false

namespace SuiteCloud.Provisioning.Rspamd

open SuiteCloud.Library Json

variable {N : Type} [Numeral N]

/-! ## What is written -/

/-- What the recorder asks of a message; a number is as Rspamd gives it, and the scan time in
milliseconds. -/
structure Task (N : Type) where
  time : N
  smtpFrom : Option (List (Option String))
  mimeFrom : Option (List (Option String))
  messageId : Option String
  queueId : Option String
  /-- The address of the client, if it is valid. -/
  clientIp : Option String
  recipients : N
  size : N
  action : Option String
  score : N
  scanTime : N
  symbols : List (String × N)

/-- `first_address`. -/
def firstAddress (addresses : Option (List (Option String))) : Option String :=
  addresses.bind fun listed => listed.head?.join

/-- `get_symbol_scores`; an empty table is written as a list. -/
def symbolScores (symbols : List (String × N)) : Json N :=
  if symbols = [] then .list []
  else .object ((Dict.ofList symbols).map fun symbol => (symbol.1, .number symbol.2))

/-- **`get_record`**: a field that is nil is left out. -/
def getRecord (task : Task N) (user : String) : List (String × Json N) :=
  [("time", some (.number task.time)), ("user", some (.text user)),
    ("envelope_from", (firstAddress task.smtpFrom).map .text),
    ("header_from", (firstAddress task.mimeFrom).map .text), ("message_id", task.messageId.map .text),
    ("queue_id", task.queueId.map .text), ("client_ip", task.clientIp.map .text),
    ("recipients", some (.number task.recipients)), ("size", some (.number task.size)),
    ("action", task.action.map .text), ("score", some (.number task.score)),
    ("scan_time", some (.number task.scanTime)), ("symbols", some (symbolScores task.symbols))].filterMap
    fun field => field.2.map (field.1, ·)

/-- **`record_scan`**: an object for a message of a signed-in sender. -/
def recordScan (task : Task N) (user : Option String) : Option (List (String × Json N)) :=
  user.map (getRecord task)

/-- **How the recorder writes**: without blanks; a character past U+007F as it is, another as printable
ones. -/
structure Recorder (style : Style) : Prop where
  blanks : ∀ depth, style.opening depth ++ style.between depth ++ style.closing depth ++ style.colon = []
  unescaped : ∀ c : Char, 0x80 ≤ c.toNat → style.escape c = [c]
  ascii : ∀ c : Char, c.toNat < 0x80 → ∀ d ∈ style.escape c, 0x20 ≤ d.toNat ∧ d.toNat < 0x80

/-- **What became of one write**: the object, and the characters of its text that reached the file. A
character cut in its bytes is read as U+FFFD. Where the new line is missing, the next write goes on. -/
structure Line (N : Type) where
  members : List (String × Json N)
  distinct : keyed (.object members) = true
  written : ℕ
  torn : Bool
  ended : Bool

variable (style : Style)

def Line.object (line : Line N) : Json N := .object line.members

/-- The text of its object. -/
def Line.whole (line : Line N) : List Char := style.dumps line.object

def Line.isComplete (line : Line N) : Bool := (line.whole style).length ≤ line.written

def Line.text (line : Line N) : List Char :=
  if line.isComplete style then line.whole style
  else (line.whole style).take line.written ++ if line.torn then [Char.ofNat 0xFFFD] else []

/-- **The file.** -/
def fileText (lines : List (Line N)) : List Char :=
  lines.flatMap fun line => line.text style ++ if line.ended then ['\n'] else []

/-! ## What is read -/

/-- A line that parses, and is an object. -/
def asRecord (line : List Char) : Option (Json N) :=
  match loads line with
  | some (.object members) => some (.object members)
  | _ => none

/-- **`get_records`.** -/
def getRecords (text : List Char) : List (Json N) := (splitlines text).filterMap asRecord

variable {style} {text piece rest : List Char} {c : Char}

theorem asRecord_nil : asRecord ([] : List Char) = (none : Option (Json N)) := rfl

theorem filterMap_linesFrom (plain : ∀ c ∈ text, c ≠ '\r') :
    (linesFrom piece text).filterMap (asRecord (N := N)) = (piecesFrom piece text).filterMap asRecord := by
  induction text generalizing piece with
  | nil =>
    rw [linesFrom, piecesFrom]
    split
    · next empty =>
      rw [empty, List.filterMap_cons_none asRecord_nil]
    · rfl
  | cons c text ih =>
    obtain ⟨first, later⟩ := List.forall_mem_cons.mp plain
    rw [linesFrom_cons first, piecesFrom]
    split
    · rw [List.filterMap_cons, List.filterMap_cons, ih later]
    · rw [ih later]

/-! ### The characters of a line -/

section Lines

variable {line : Line N} {lines : List (Line N)} {value : Json N}

theorem Recorder.printed (recorder : Recorder style) (value : Json N) :
    ∀ c ∈ style.dumps value, 0x20 ≤ c.toNat := by
  have writes : Writes style (fun _ => True) fun c => 0x20 ≤ c.toNat := by
    refine ⟨fun c mark => ?_, fun depth c member => ?_, fun c _ d member => ?_⟩
    · exact (toNat_of_mark mark).1
    · rw [recorder.blanks] at member
      cases member
    · by_cases ascii : c.toNat < 0x80
      · exact (recorder.ascii c ascii d member).1
      · rw [recorder.unescaped c (by omega)] at member
        rw [List.mem_singleton.mp member]
        omega
  exact writes.write (holds_of_forall (fun _ => trivial) value) 0

theorem not_lineBreak (printed : 0x20 ≤ c.toNat) (ascii : c.toNat < 0x80) : ¬ isLineBreak c := by
  intro breaks
  have listed := of_decide_eq_true breaks
  simp only [List.mem_cons, List.not_mem_nil, or_false] at listed
  omega

theorem Recorder.unbroken (recorder : Recorder style) {value : Json N}
    (holds : Holds (fun c => ¬ isLineBreak c) value) : ∀ c ∈ style.dumps value, ¬ isLineBreak c := by
  have writes : Writes style (fun c => ¬ isLineBreak c) fun c => ¬ isLineBreak c := by
    refine ⟨fun c mark => ?_, fun depth c member => ?_, fun c whole d member => ?_⟩
    · obtain ⟨least, most⟩ := toNat_of_mark mark
      exact not_lineBreak least (by omega)
    · rw [recorder.blanks] at member
      cases member
    · by_cases ascii : c.toNat < 0x80
      · obtain ⟨least, most⟩ := recorder.ascii c ascii d member
        exact not_lineBreak least most
      · rw [recorder.unescaped c (by omega)] at member
        rw [List.mem_singleton.mp member]
        exact whole
  exact writes.write holds 0

theorem Recorder.text_printed (recorder : Recorder style) (line : Line N) :
    ∀ c ∈ line.text style, 0x20 ≤ c.toNat := by
  intro c member
  unfold Line.text at member
  split at member
  · exact recorder.printed _ c member
  · rcases List.mem_append.mp member with cut | torn
    · exact recorder.printed _ c (List.mem_of_mem_take cut)
    · split at torn
      · rw [List.mem_singleton.mp torn]
        decide
      · cases torn

theorem ne_return_of_printed (printed : 0x20 ≤ c.toNat) : c ≠ '\r' := by
  rintro rfl
  exact absurd printed (by decide)

theorem getRecords_append (printed : ∀ c ∈ text, 0x20 ≤ c.toNat) :
    getRecords (text ++ '\n' :: rest) = (pieces text).filterMap (asRecord (N := N)) ++ getRecords rest := by
  rw [getRecords, splitlines, linesFrom_append fun c member => ne_return_of_printed (printed c member),
    List.filterMap_append]
  rfl

/-- The records of a line. -/
def Line.records (style : Style) (line : Line N) : List (Json N) :=
  (pieces (line.text style)).filterMap asRecord

theorem fileText_ended (ended : line.ended = true) (rest : List (Line N)) :
    fileText style (line :: rest) = line.text style ++ '\n' :: fileText style rest := by
  rw [fileText, List.flatMap_cons, if_pos ended, List.append_assoc]
  rfl

theorem getRecords_ended (recorder : Recorder style) (ended : ∀ line ∈ lines, line.ended = true)
    (rest : List (Line N)) :
    getRecords (fileText style (lines ++ rest))
      = lines.flatMap (Line.records style) ++ getRecords (fileText style rest) := by
  induction lines with
  | nil => rfl
  | cons line lines ih =>
    obtain ⟨first, later⟩ := List.forall_mem_cons.mp ended
    rw [List.cons_append, fileText_ended first, getRecords_append (recorder.text_printed line), ih later,
      List.flatMap_cons, List.append_assoc]
    rfl

/-- **The records of a file** are those of the pieces of its lines, where only the last may lack its
end. -/
theorem getRecords_fileText (recorder : Recorder style) (lines : List (Line N))
    (apart : ∀ line ∈ lines.dropLast, line.ended = true) :
    getRecords (fileText style lines) = lines.flatMap (Line.records style) := by
  rcases List.eq_nil_or_concat lines with rfl | ⟨before, last, rfl⟩
  · rfl
  rw [List.concat_eq_append] at apart ⊢
  rw [List.dropLast_concat] at apart
  rw [getRecords_ended recorder apart, List.flatMap_append]
  congr 1
  have plain : ∀ c ∈ last.text style, c ≠ '\r' := fun c member =>
    ne_return_of_printed (recorder.text_printed last c member)
  by_cases ended : last.ended = true
  · rw [fileText_ended ended, getRecords_append (recorder.text_printed last)]
    rfl
  · rw [getRecords, splitlines, fileText, List.flatMap_singleton, if_neg ended, List.append_nil,
      filterMap_linesFrom plain, List.flatMap_singleton]
    rfl

/-! ### The records of a line -/

/-- A line break of a written text stands in strings only. -/
theorem Recorder.foreign (recorder : Recorder style) {value : Json N} (member : c ∈ style.dumps value)
    (breaks : isLineBreak c) : isForeign c = true := by
  have printed := recorder.printed value c member
  have listed := of_decide_eq_true breaks
  simp only [List.mem_cons, List.not_mem_nil, or_false] at listed
  have one : c.toNat = 0x85 ∨ c.toNat = 0x2028 ∨ c.toNat = 0x2029 := by omega
  rcases one with same | same | same
  all_goals
    rw [← Char.ofNat_toNat c, same]
    decide

/-- A line without the characters is one piece. -/
theorem Line.nested (line : Line N) : isNested line.object = true := rfl

theorem Line.read (line : Line N) : loads (line.whole style) = some line.object := loads_dumps style line.distinct

theorem records_of_complete (complete : line.isComplete style = true)
    (plain : ∀ c ∈ line.text style, ¬ isLineBreak c) : line.records style = [line.object] := by
  rw [Line.records, pieces_eq plain, Line.text, if_pos complete, List.filterMap_cons, asRecord, line.read]
  rfl

theorem loads_of_incomplete (cut : ¬ line.isComplete style = true) : loads (N := N) (line.text style) = none := by
  have short : ¬ (line.whole style).length ≤ line.written := fun all => cut (decide_eq_true all)
  rw [Line.text, if_neg cut]
  by_cases torn : line.torn = true
  · rw [if_pos torn]
    exact loads_eq_none_of_foreign (by decide)
  · rw [if_neg torn, List.append_nil]
    refine loads_eq_none_of_cut line.nested line.distinct (List.take_append_drop line.written _).symm ?_
    intro none
    exact short (List.drop_eq_nil_iff.mp none)

theorem records_of_incomplete (cut : ¬ line.isComplete style = true)
    (plain : ∀ c ∈ line.text style, ¬ isLineBreak c) : line.records style = [] := by
  rw [Line.records, pieces_eq plain, List.filterMap_cons, asRecord, loads_of_incomplete cut]
  rfl

theorem loads_after_cut {next : Line N} (cut : ¬ line.isComplete style = true) (some : line.text style ≠ []) :
    loads (N := N) (line.text style ++ next.whole style) = none := by
  have split : line.whole style = (line.whole style).take line.written ++ (line.whole style).drop line.written :=
    (List.take_append_drop _ _).symm
  cases ran : (Reader.start : Reader N).run (line.text style) with
  | none => rw [loads, run_append, ran, Option.bind_none, Option.bind_none]
  | some reader =>
    refine loads_append_object ran ?_ next.distinct
    rw [Line.text, if_neg cut] at ran some
    by_cases torn : line.torn = true
    · rw [if_pos torn] at ran
      by_cases empty : (line.whole style).take line.written = []
      · rw [empty, List.nil_append, run_cons] at ran
        obtain ⟨middle, first, -⟩ := Option.bind_eq_some_iff.mp ran
        cases (begin_foreign (by decide)).symm.trans first
      · obtain ⟨begun, before, inside⟩ := run_cut line.nested line.distinct split empty
        rw [run_append, before, Option.bind_some] at ran
        exact inside.run ran
    · rw [if_neg torn, List.append_nil] at ran some
      obtain ⟨begun, before, inside⟩ := run_cut line.nested line.distinct split some
      obtain rfl := Option.some.inj (before.symm.trans ran)
      exact inside

/-- **No piece of a complete line is read as an object that holds one of the characters**, unless it is
the line. -/
theorem reads_of_piece (recorder : Recorder style) {found : Json N}
    (member : piece ∈ pieces (line.whole style)) (reads : loads piece = some found) :
    found = line.object ∧ (∀ c ∈ line.whole style, ¬ isLineBreak c) ∨
      Holds (fun c => ¬ isLineBreak c) found := by
  obtain ⟨free, ⟨after, begins⟩ | ⟨before, c, after, stands, breaks⟩⟩ :=
    mem_piecesFrom member fun _ none => absurd none List.not_mem_nil
  · rw [List.nil_append] at begins
    left
    by_cases all : after = []
    · subst all
      rw [List.append_nil] at begins
      rw [← begins, line.read] at reads
      exact ⟨(Option.some.inj reads).symm, begins ▸ free⟩
    · rw [loads_eq_none_of_cut line.nested line.distinct begins all] at reads
      cases reads
  · -- The writer's reader is inside of a string where the piece begins.
    right
    have among : c ∈ line.whole style := by
      rw [stands]
      exact List.mem_append_right _ List.mem_cons_self
    have foreign := recorder.foreign among breaks
    obtain ⟨final, goes, -⟩ := reads_written style line.object line.distinct 0 []
    have whole : Reader.start.run (before ++ c :: (piece ++ after)) = some final := stands ▸ goes
    rw [run_append] at whole
    obtain ⟨reader, -, whole⟩ := Option.bind_eq_some_iff.mp whole
    rw [run_cons] at whole
    obtain ⟨inside, next, whole⟩ := Option.bind_eq_some_iff.mp whole
    rw [run_append] at whole
    obtain ⟨reader', goes', -⟩ := Option.bind_eq_some_iff.mp whole
    exact holds_of_piece (inString_of_foreign foreign next) goes' reads free

end Lines

/-! ## Which objects are read -/

/-- The objects whose text is in the file as a whole. -/
def completeObjects (style : Style) (lines : List (Line N)) : List (Json N) :=
  (lines.filter fun line => line.isComplete style).map Line.object

theorem asRecord_eq_some {line : List Char} {value : Json N} (read : asRecord line = some value) :
    loads line = some value := by
  unfold asRecord at read
  split at read
  · next members reads => exact reads.trans read
  · cases read

theorem flatMap_records {lines : List (Line N)} (plain : ∀ line ∈ lines, ∀ c ∈ line.text style, ¬ isLineBreak c) :
    lines.flatMap (Line.records style) = completeObjects style lines := by
  unfold completeObjects
  induction lines with
  | nil => rfl
  | cons line rest ih =>
    obtain ⟨first, later⟩ := List.forall_mem_cons.mp plain
    rw [List.flatMap_cons, ih later]
    by_cases complete : line.isComplete style = true
    · rw [records_of_complete complete first, List.filter_cons_of_pos complete]
      rfl
    · rw [records_of_incomplete complete first, List.filter_cons_of_neg complete]
      rfl

/-- **Every scan is shipped, exactly when** no complete object's text holds U+0085, U+2028 or U+2029: of a
file in which only the last line may lack its end, and no line cut short holds one of them. Where a line cut
short lacks its end, a complete object written right after it is lost. -/
theorem every_scan_shipped_iff (recorder : Recorder style) :
    (∀ lines : List (Line N), (∀ line ∈ lines.dropLast, line.ended = true) →
      (∀ line ∈ lines, ¬ line.isComplete style = true → ∀ c ∈ line.text style, ¬ isLineBreak c) →
      (getRecords (fileText style lines) = completeObjects style lines ↔
        ∀ line ∈ lines, line.isComplete style = true → ∀ c ∈ line.text style, ¬ isLineBreak c)) ∧
    ∀ (before : List (Line N)) (cut next : Line N) (after : List (Line N)),
      (∀ line ∈ before ++ next :: after.dropLast, line.ended = true) →
      (∀ line ∈ before ++ cut :: next :: after, ∀ c ∈ line.text style, ¬ isLineBreak c) →
      ¬ cut.isComplete style = true → cut.text style ≠ [] → cut.ended = false → next.isComplete style = true →
      getRecords (fileText style (before ++ cut :: next :: after))
        ≠ completeObjects style (before ++ cut :: next :: after) := by
  constructor
  · intro lines apart whole
    rw [getRecords_fileText recorder lines apart]
    constructor
    · intro same line member complete c among breaks
      have text : line.text style = line.whole style := if_pos complete
      rw [text] at among
      have listed : line.object ∈ completeObjects style lines :=
        List.mem_map_of_mem (List.mem_filter.mpr ⟨member, complete⟩)
      rw [← same] at listed
      obtain ⟨other, member', found⟩ := List.mem_flatMap.mp listed
      by_cases complete' : other.isComplete style = true
      · have text' : other.text style = other.whole style := if_pos complete'
        obtain ⟨piece, cut, reads⟩ := List.mem_filterMap.mp found
        rw [text'] at cut
        rcases reads_of_piece recorder cut (asRecord_eq_some reads) with ⟨equal, free⟩ | holds
        · rw [Line.whole, ← equal] at free
          exact free c among breaks
        · exact recorder.unbroken holds c among breaks
      · rw [records_of_incomplete complete' (whole other member' complete')] at found
        cases found
    · intro free
      refine flatMap_records fun line member => ?_
      by_cases complete : line.isComplete style = true
      · exact free line member complete
      · exact whole line member complete
  · intro before cut next after ended plain incomplete some endless complete same
    obtain ⟨first, ended, apart⟩ : (∀ line ∈ before, line.ended = true) ∧ next.ended = true ∧
        ∀ line ∈ after.dropLast, line.ended = true := by
      rwa [List.forall_mem_append, List.forall_mem_cons] at ended
    obtain ⟨plain', free, free', free''⟩ : (∀ line ∈ before, ∀ c ∈ line.text style, ¬ isLineBreak c) ∧
        (∀ c ∈ cut.text style, ¬ isLineBreak c) ∧ (∀ c ∈ next.text style, ¬ isLineBreak c) ∧
        ∀ line ∈ after, ∀ c ∈ line.text style, ¬ isLineBreak c := by
      rwa [List.forall_mem_append, List.forall_mem_cons, List.forall_mem_cons] at plain
    have glued : fileText style (cut :: next :: after)
        = (cut.text style ++ next.text style) ++ '\n' :: fileText style after := by
      rw [List.append_assoc, ← fileText_ended ended, fileText, List.flatMap_cons, endless, if_neg Bool.false_ne_true,
        List.append_nil]
      rfl
    have printed : ∀ c ∈ cut.text style ++ next.text style, 0x20 ≤ c.toNat :=
      List.forall_mem_append.mpr ⟨recorder.text_printed cut, recorder.text_printed next⟩
    have lost : (pieces (cut.text style ++ next.text style)).filterMap (asRecord (N := N)) = [] := by
      have text : next.text style = next.whole style := if_pos complete
      rw [pieces_eq (List.forall_mem_append.mpr ⟨free, free'⟩), List.filterMap_cons, asRecord, text,
        loads_after_cut incomplete some]
      rfl
    rw [getRecords_ended recorder first, glued, getRecords_append printed, lost, List.nil_append,
      getRecords_fileText recorder after apart, flatMap_records plain', flatMap_records free'', completeObjects,
      completeObjects, completeObjects, List.filter_append, List.map_append, List.filter_cons_of_neg incomplete,
      List.filter_cons_of_pos complete, List.map_cons] at same
    exact List.cons_ne_self _ _ (List.append_cancel_left same).symm

/-- A writer that escapes what it must. -/
def sampleStyle : Style := compact plainEscape reads_plainEscape

theorem sample_recorder : Recorder sampleStyle := by
  refine ⟨fun _ => rfl, fun c past => ?_, fun c ascii d member => ?_⟩
  · show plainEscape c = [c]
    have long : escapeLetters.lookup c = none := by
      refine List.lookup_eq_none_iff.mpr fun pair member => ?_
      have table : ∀ pair ∈ escapeLetters, pair.1.toNat < 0x80 := by decide
      refine bne_iff_ne.mpr ?_
      rintro rfl
      exact absurd (table pair member) (by omega)
    have printed : ¬ c < ' ' := fun control => by
      have small : c.toNat < 0x20 := control
      omega
    rw [plainEscape, long, if_neg printed]
  · have small : ∀ digit < 16, 0x20 ≤ (Nat.digitChar digit).toNat ∧ (Nat.digitChar digit).toNat < 0x80 := by
      have table : ∀ digit ∈ List.range 16,
          0x20 ≤ (Nat.digitChar digit).toNat ∧ (Nat.digitChar digit).toNat < 0x80 := by decide
      exact fun digit least => table digit (List.mem_range.mpr least)
    change d ∈ plainEscape c at member
    unfold plainEscape at member
    cases short : escapeLetters.lookup c with
    | some letter =>
      rw [short] at member
      have table : (escapeLetters.all fun pair =>
          ['\\', pair.2].all fun d => decide (0x20 ≤ d.toNat ∧ d.toNat < 0x80)) = true := by decide
      obtain ⟨before, after, split, -⟩ := List.lookup_eq_some_iff.mp short
      have both := List.all_eq_true.mp table (c, letter) (split ▸ List.mem_append_right _ List.mem_cons_self)
      exact of_decide_eq_true (List.all_eq_true.mp both d member)
    | none =>
      rw [short] at member
      simp only at member
      split at member
      · simp only [unicodeEscape, List.mem_cons, List.not_mem_nil, or_false] at member
        rcases member with rfl | rfl | rfl | rfl | rfl | rfl
        · decide
        · decide
        · exact small _ (by omega)
        · exact small _ (by omega)
        · exact small _ (by omega)
        · exact small _ (by omega)
      · next printed =>
        obtain rfl := List.mem_singleton.mp member
        exact ⟨not_lt.mp printed, ascii⟩

/-- A message, by its id. -/
def sampleTask (messageId : String) : Task NumberText where
  time := ⟨"1792490340.25".toList, rfl⟩
  smtpFrom := some [some "jane@acme.test"]
  mimeFrom := some [some "jane@acme.test"]
  messageId := some messageId
  queueId := some "Q1"
  clientIp := some "198.51.100.7"
  recipients := ⟨"2".toList, rfl⟩
  size := ⟨"2048".toList, rfl⟩
  action := some "no action"
  score := ⟨"3.5".toList, rfl⟩
  scanTime := ⟨"87".toList, rfl⟩
  symbols := [("MIME_GOOD", ⟨"-0.1".toList, rfl⟩)]

/-- Its line, written so far. -/
def sampleLine (messageId : String) (written : ℕ) (ended : Bool) : Line NumberText where
  members := getRecord (sampleTask messageId) "jane@acme.test"
  distinct := rfl
  written := written
  torn := false
  ended := ended

/-- A line cut short is skipped at the end of a file, and loses the line that is written after it. -/
theorem every_scan_shipped_iff_cut :
    getRecords (fileText sampleStyle [sampleLine "<1@acme.test>" 1000 true, sampleLine "<2@acme.test>" 40 false])
        = completeObjects sampleStyle
          [sampleLine "<1@acme.test>" 1000 true, sampleLine "<2@acme.test>" 40 false] ∧
      getRecords (fileText sampleStyle [sampleLine "<1@acme.test>" 40 false, sampleLine "<2@acme.test>" 1000 true])
        ≠ completeObjects sampleStyle
          [sampleLine "<1@acme.test>" 40 false, sampleLine "<2@acme.test>" 1000 true] := by
  have plain : ∀ line : Line NumberText, ((line.text sampleStyle).all fun c => !isLineBreak c) = true →
      ∀ c ∈ line.text sampleStyle, ¬ isLineBreak c := by
    intro line all c member
    have other := List.all_eq_true.mp all c member
    simpa using other
  have one := plain (sampleLine "<1@acme.test>" 1000 true) (by decide +kernel)
  have two := plain (sampleLine "<2@acme.test>" 40 false) (by decide +kernel)
  have three := plain (sampleLine "<1@acme.test>" 40 false) (by decide +kernel)
  have four := plain (sampleLine "<2@acme.test>" 1000 true) (by decide +kernel)
  constructor
  · refine ((every_scan_shipped_iff sample_recorder).1 _ (by decide) ?_).mpr ?_
    · exact List.forall_mem_cons.mpr ⟨fun _ => one, List.forall_mem_singleton.mpr fun _ => two⟩
    · exact List.forall_mem_cons.mpr ⟨fun _ => one, List.forall_mem_singleton.mpr fun _ => two⟩
  · have torn : (sampleLine "<1@acme.test>" 40 false).text sampleStyle ≠ [] :=
      List.ne_nil_of_length_pos (by decide +kernel)
    have both : ∀ line ∈ [sampleLine "<1@acme.test>" 40 false, sampleLine "<2@acme.test>" 1000 true],
        ∀ c ∈ line.text sampleStyle, ¬ isLineBreak c :=
      List.forall_mem_cons.mpr ⟨three, List.forall_mem_singleton.mpr four⟩
    exact (every_scan_shipped_iff (N := NumberText) sample_recorder).2 [] (sampleLine "<1@acme.test>" 40 false)
      (sampleLine "<2@acme.test>" 1000 true) [] (by decide) both (by decide +kernel) torn rfl (by decide +kernel)

/-- **A message id with U+2028** keeps its message out of what is shipped. -/
theorem scan_lost :
    getRecords (fileText sampleStyle [sampleLine "<1\u2028@acme.test>" 1000 true]) = ([] : List (Json NumberText)) ∧
      completeObjects sampleStyle [sampleLine "<1\u2028@acme.test>" 1000 true]
        = [(sampleLine "<1\u2028@acme.test>" 1000 true).object] := by
  constructor
  · exact List.eq_nil_of_length_eq_zero (by decide +kernel)
  · rw [completeObjects, List.filter_cons_of_pos (by decide +kernel), List.filter_nil, List.map_singleton]

end SuiteCloud.Provisioning.Rspamd
