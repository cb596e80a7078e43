/-
**JSON texts.**

A value, the texts writers give it, and a reader of texts. The reader goes through the characters one by
one with a stack of the lists and objects it is inside of, so that reading a text is a fold.

* `Json`, `Numeral` — a value, over a type of numbers with their texts; `NumberText` — numbers that are
  their texts.
* `loads` — the reader; `Style.dumps` — a writer: its escapes, and the blanks it puts between tokens.
* `loads_dumps` — **what is written is read back**, by every writer; so `dumps_injective`.
-/

import Mathlib.Data.Char
import SuiteCloud.Library.Dict

set_option linter.unusedSectionVars false

namespace SuiteCloud.Library

/-- **A JSON value**, over a type of numbers. -/
inductive Json (N : Type)
  | null
  | bool (value : Bool)
  | number (value : N)
  | text (content : String)
  | list (items : List (Json N))
  | object (members : List (String × Json N))

/-- The characters of a number's text. -/
def isNumeral (c : Char) : Bool := c.isDigit || c ∈ ['-', '+', '.', 'e', 'E']

/-- **Numbers with their texts**: a text of a number is read back. -/
class Numeral (N : Type) where
  text : N → List Char
  read : List Char → Option N
  nonempty : ∀ value, text value ≠ []
  numeral : ∀ value, (text value).all isNumeral
  read_text : ∀ value, read (text value) = some value

/-- No numbers at all. -/
instance : Numeral Empty where
  text := nofun
  read _ := none
  nonempty := nofun
  numeral := nofun
  read_text := nofun

/-! ### Numbers by their texts -/

/-- Digits, at least one. -/
def areDigits (text : List Char) : Bool := !text.isEmpty && text.all Char.isDigit

/-- The exponent of a number, if it has one. -/
def isExponent : List Char → Bool
  | [] => true
  | c :: rest => (c = 'e' || c = 'E') &&
      areDigits (match rest with
        | '+' :: digits => digits
        | '-' :: digits => digits
        | digits => digits)

/-- The fraction of a number, if it has one, and the exponent. -/
def isFraction : List Char → Bool
  | '.' :: rest => areDigits (rest.takeWhile Char.isDigit) && isExponent (rest.dropWhile Char.isDigit)
  | rest => isExponent rest

/-- A number without its sign: no zero leads its digits. -/
def isUnsigned (text : List Char) : Bool :=
  areDigits (text.takeWhile Char.isDigit) &&
    (text.takeWhile Char.isDigit = ['0'] || text.head? ≠ some '0') &&
    isFraction (text.dropWhile Char.isDigit)

/-- A text of a JSON number. -/
def isNumberText (text : List Char) : Bool :=
  text.all isNumeral && isUnsigned (match text with
    | '-' :: rest => rest
    | _ => text)

/-- **A number that is its text.** -/
structure NumberText where
  text : List Char
  valid : isNumberText text = true

instance : Numeral NumberText where
  text := NumberText.text
  read text := if valid : isNumberText text = true then some ⟨text, valid⟩ else none
  nonempty value none := by
    have valid := value.valid
    rw [none] at valid
    cases valid
  numeral value := ((Bool.and_eq_true _ _).mp value.valid).1
  read_text value := dif_pos value.valid

namespace Json

variable {N : Type}

/-! ### Reading a string -/

/-- Where the reader stands inside a string. -/
inductive Escape
  | plain
  /-- After a backslash. -/
  | backslash
  /-- After `\u`, with the digits read. -/
  | unicode (digits : List ℕ)

/-- A string under way: what is read of it, and the first half of a surrogate pair, if the second is
still to come. -/
structure Reading where
  read : List Char
  high : Option ℕ
  escape : Escape

/-- The character a backslash and a letter stand for. -/
def escaped (c : Char) : Option Char :=
  [('"', '"'), ('\\', '\\'), ('/', '/'), ('b', Char.ofNat 8), ('f', Char.ofNat 12), ('n', '\n'), ('r', '\r'),
    ('t', '\t')].lookup c

/-- The value of a hexadecimal digit. -/
def hexValue (c : Char) : Option ℕ :=
  if c.isDigit then some (c.toNat - 48)
  else if 'a' ≤ c ∧ c ≤ 'f' then some (c.toNat - 87)
  else if 'A' ≤ c ∧ c ≤ 'F' then some (c.toNat - 55)
  else none

/-- A 16-bit unit is read: a character, or half of one. -/
def Reading.unit (reading : Reading) (unit : ℕ) : Option Reading :=
  match reading.high with
  | none =>
      if 0xD800 ≤ unit ∧ unit < 0xDC00 then some ⟨reading.read, some unit, .plain⟩
      else if 0xDC00 ≤ unit ∧ unit < 0xE000 then none
      else some ⟨reading.read ++ [Char.ofNat unit], none, .plain⟩
  | some high =>
      if 0xDC00 ≤ unit ∧ unit < 0xE000 then
        some ⟨reading.read ++ [Char.ofNat (0x10000 + (high - 0xD800) * 0x400 + (unit - 0xDC00))], none, .plain⟩
      else none

/-- **The next character of a string** that does not end it; a control character must be escaped. -/
def Reading.next (reading : Reading) (c : Char) : Option Reading :=
  match reading.escape with
  | .plain =>
      if c = '\\' then some { reading with escape := .backslash }
      else if c = '"' ∨ c < ' ' ∨ reading.high.isSome then none
      else some { reading with read := reading.read ++ [c] }
  | .backslash =>
      if c = 'u' then some { reading with escape := .unicode [] }
      else if reading.high.isSome then none
      else (escaped c).map fun char => ⟨reading.read ++ [char], none, .plain⟩
  | .unicode [first, second, third] =>
      (hexValue c).bind fun last => reading.unit (((first * 16 + second) * 16 + third) * 16 + last)
  | .unicode digits => (hexValue c).map fun digit => { reading with escape := .unicode (digits ++ [digit]) }

/-- A string may end here. -/
def Reading.ends (reading : Reading) : Bool :=
  match reading.escape with
  | .plain => reading.high.isNone
  | _ => false

def Reading.of (read : List Char) : Reading := ⟨read, none, .plain⟩

/-! ### Reading a value -/

/-- A list or an object the reader is inside of, with what it has read of it. -/
inductive Frame (N : Type)
  | list (items : List (Json N))
  | object (members : List (String × Json N)) (key : String)

/-- What the reader expects, or has read last. -/
inductive Mode (N : Type)
  | value
  | firstItem
  | firstKey
  | key (members : List (String × Json N))
  | keyText (members : List (String × Json N)) (reading : Reading)
  | colon (members : List (String × Json N)) (key : String)
  | text (reading : Reading)
  | word (read : List Char)
  | done (value : Json N)

/-- The reader: its mode and the frames it is inside of, the innermost first. -/
structure Reader (N : Type) where
  mode : Mode N
  stack : List (Frame N)

def isBlank (c : Char) : Bool := c ∈ [' ', '\t', '\n', '\r']

/-- The characters of a number or of `true`, `false` and `null`. -/
def isWord (c : Char) : Bool := c.isAlphanum || isNumeral c

variable [Numeral N]

/-- What a word stands for. -/
def ofWord (word : List Char) : Option (Json N) :=
  if word = "null".toList then some .null
  else if word = "true".toList then some (.bool true)
  else if word = "false".toList then some (.bool false)
  else (Numeral.read word).map .number

/-- A value is about to begin. -/
def begin (stack : List (Frame N)) (c : Char) : Option (Reader N) :=
  if isBlank c then some ⟨.value, stack⟩
  else if c = '"' then some ⟨.text (.of []), stack⟩
  else if c = '[' then some ⟨.firstItem, stack⟩
  else if c = '\x7b' then some ⟨.firstKey, stack⟩
  else if isWord c then some ⟨.word [c], stack⟩
  else none

/-- A value has ended. -/
def follow (value : Json N) (stack : List (Frame N)) (c : Char) : Option (Reader N) :=
  if isBlank c then some ⟨.done value, stack⟩
  else
    match stack with
    | [] => none
    | .list items :: rest =>
        if c = ',' then some ⟨.value, .list (items ++ [value]) :: rest⟩
        else if c = ']' then some ⟨.done (.list (items ++ [value])), rest⟩
        else none
    | .object members key :: rest =>
        if c = ',' then some ⟨.key (Dict.set members key value), rest⟩
        else if c = '\x7d' then some ⟨.done (.object (Dict.set members key value)), rest⟩
        else none

/-- **The reader's next character.** -/
def Reader.next (reader : Reader N) (c : Char) : Option (Reader N) :=
  match reader.mode with
  | .value => begin reader.stack c
  | .firstItem =>
      if isBlank c then some reader
      else if c = ']' then some ⟨.done (.list []), reader.stack⟩
      else begin (.list [] :: reader.stack) c
  | .firstKey =>
      if isBlank c then some reader
      else if c = '\x7d' then some ⟨.done (.object []), reader.stack⟩
      else if c = '"' then some ⟨.keyText [] (.of []), reader.stack⟩
      else none
  | .key members =>
      if isBlank c then some reader
      else if c = '"' then some ⟨.keyText members (.of []), reader.stack⟩
      else none
  | .keyText members reading =>
      if c = '"' ∧ reading.ends then some ⟨.colon members (String.ofList reading.read), reader.stack⟩
      else (reading.next c).map fun reading => ⟨.keyText members reading, reader.stack⟩
  | .colon members key =>
      if isBlank c then some reader
      else if c = ':' then some ⟨.value, .object members key :: reader.stack⟩
      else none
  | .text reading =>
      if c = '"' ∧ reading.ends then some ⟨.done (.text (String.ofList reading.read)), reader.stack⟩
      else (reading.next c).map fun reading => ⟨.text reading, reader.stack⟩
  | .word read =>
      if isWord c then some ⟨.word (read ++ [c]), reader.stack⟩
      else (ofWord read).bind fun value => follow value reader.stack c
  | .done value => follow value reader.stack c

/-- The value, where the text may end. -/
def Reader.result (reader : Reader N) : Option (Json N) :=
  match reader.stack, reader.mode with
  | [], .done value => some value
  | [], .word read => ofWord read
  | _, _ => none

/-- The reader after a text. -/
def Reader.run (reader : Reader N) (text : List Char) : Option (Reader N) := text.foldlM Reader.next reader

def Reader.start : Reader N := ⟨.value, []⟩

/-- **`json.loads`**: the value of a text, none where it raises. -/
def loads (text : List Char) : Option (Json N) := (Reader.start.run text).bind Reader.result

/-! ### Writing -/

/-- **A writer's habits**: the escapes of a string's characters, and the blanks after an opening bracket,
after a comma and before a closing bracket, at each depth, and after a colon. -/
structure Style where
  escape : Char → List Char
  opening : ℕ → List Char
  between : ℕ → List Char
  closing : ℕ → List Char
  colon : List Char
  escapes : ∀ c read, (escape c).foldlM Reading.next (.of read) = some (.of (read ++ [c]))
  blank : ∀ depth, ∀ c ∈ opening depth ++ between depth ++ closing depth ++ colon, isBlank c = true

variable (style : Style)

/-- A string, in quotes. -/
def Style.quoted (content : String) : List Char := '"' :: content.toList.flatMap style.escape ++ ['"']

mutual

/-- **`json.dumps`** in a style, at a depth. -/
def Style.write (depth : ℕ) : Json N → List Char
  | .null => "null".toList
  | .bool value => if value then "true".toList else "false".toList
  | .number value => Numeral.text value
  | .text content => style.quoted content
  | .list items => '[' :: Style.writeItems depth true items
  | .object members => '\x7b' :: Style.writeMembers depth true members

/-- The items of a list that are still to be written, the first of all or after others. -/
def Style.writeItems (depth : ℕ) (first : Bool) : List (Json N) → List Char
  | [] => (if first then [] else style.closing depth) ++ [']']
  | item :: rest =>
      (if first then style.opening (depth + 1) else ',' :: style.between (depth + 1)) ++
        Style.write (depth + 1) item ++ Style.writeItems depth false rest

def Style.writeMembers (depth : ℕ) (first : Bool) : List (String × Json N) → List Char
  | [] => (if first then [] else style.closing depth) ++ ['\x7d']
  | (key, value) :: rest =>
      (if first then style.opening (depth + 1) else ',' :: style.between (depth + 1)) ++
        style.quoted key ++ ':' :: style.colon ++ Style.write (depth + 1) value ++
          Style.writeMembers depth false rest

end

def Style.dumps (value : Json N) : List Char := style.write 0 value

mutual

/-- The keys of every object are distinct. -/
def keyed : Json N → Bool
  | .list items => keyedItems items
  | .object members => decide (members.map Prod.fst).Nodup && keyedMembers members
  | _ => true

def keyedItems : List (Json N) → Bool
  | [] => true
  | item :: rest => keyed item && keyedItems rest

def keyedMembers : List (String × Json N) → Bool
  | [] => true
  | (_, value) :: rest => keyed value && keyedMembers rest

end

omit [Numeral N] in
/-- **Induction over values**: over the items of a list and the members of an object. -/
@[elab_as_elim]
theorem ind {motive : Json N → Prop} (null : motive .null) (bool : ∀ value, motive (.bool value))
    (number : ∀ value, motive (.number value)) (text : ∀ content, motive (.text content))
    (list : ∀ items, (∀ item ∈ items, motive item) → motive (.list items))
    (object : ∀ members, (∀ member ∈ members, motive member.2) → motive (.object members)) (value : Json N) :
    motive value :=
  @Json.rec N motive (fun items => ∀ item ∈ items, motive item)
    (fun members => ∀ member ∈ members, motive member.2) (fun member => motive member.2) null bool number text
    list object (fun _ absent => absurd absent List.not_mem_nil)
    (fun _ _ first rest => List.forall_mem_cons.mpr ⟨first, rest⟩)
    (fun _ absent => absurd absent List.not_mem_nil)
    (fun _ _ first rest => List.forall_mem_cons.mpr ⟨first, rest⟩)
    (fun _ _ same => same)
    value

/-! ### What is written is read back -/

section Run

variable {reader reader' : Reader N} {stack : List (Frame N)} {value : Json N} {c : Char}
  {blanks rest : List Char}

@[simp] theorem run_nil : reader.run [] = some reader := rfl

theorem run_cons : reader.run (c :: rest) = (reader.next c).bind (·.run rest) := List.foldlM_cons

theorem run_append (first : List Char) :
    reader.run (first ++ rest) = (reader.run first).bind (·.run rest) := List.foldlM_append

/-- Blanks a reader passes over. -/
theorem run_blanks (quiet : ∀ c, isBlank c = true → reader.next c = some reader)
    (blank : ∀ c ∈ blanks, isBlank c = true) : reader.run (blanks ++ rest) = reader.run rest := by
  induction blanks with
  | nil => rfl
  | cons c blanks ih =>
    obtain ⟨first, later⟩ := List.forall_mem_cons.mp blank
    rw [List.cons_append, run_cons, quiet c first, Option.bind_some, ih later]

/-- Blanks before a value. -/
theorem quiet_value (blank : isBlank c = true) :
    Reader.next ⟨.value, stack⟩ c = some (⟨.value, stack⟩ : Reader N) := if_pos blank

/-- Blanks after a value. -/
theorem quiet_done (blank : isBlank c = true) :
    Reader.next ⟨.done value, stack⟩ c = some ⟨.done value, stack⟩ := if_pos blank

/-- **A value is read**: it has ended, or it is a word that the next character may end. -/
def Ready (value : Json N) (stack : List (Frame N)) (reader : Reader N) : Prop :=
  reader = ⟨.done value, stack⟩ ∨ ∃ word, reader = ⟨.word word, stack⟩ ∧ ofWord word = some value

theorem not_word_of_blank (blank : isBlank c = true) : isWord c = false := by
  unfold isBlank at blank
  simp only [List.mem_cons, List.not_mem_nil, or_false, decide_eq_true_eq] at blank
  rcases blank with rfl | rfl | rfl | rfl <;> decide

theorem Ready.next (ready : Ready value stack reader) (plain : isWord c = false) :
    reader.next c = follow value stack c := by
  rcases ready with rfl | ⟨word, rfl, stands⟩
  · rfl
  · simp only [Reader.next]
    rw [if_neg (Bool.eq_false_iff.mp plain), stands, Option.bind_some]

/-- After a value come blanks, and a character that is none. -/
theorem Ready.run (ready : Ready value stack reader) (blank : ∀ c ∈ blanks, isBlank c = true)
    (plain : isWord c = false) :
    reader.run (blanks ++ c :: rest) = (follow value stack c).bind (·.run rest) := by
  cases blanks with
  | nil => rw [List.nil_append, run_cons, ready.next plain]
  | cons first blanks =>
    obtain ⟨here, later⟩ := List.forall_mem_cons.mp blank
    have done : follow value stack first = some ⟨.done value, stack⟩ := if_pos here
    rw [List.cons_append, run_cons, ready.next (not_word_of_blank here), done, Option.bind_some,
      run_blanks (fun _ => quiet_done) later, run_cons]
    rfl

theorem Ready.result (ready : Ready value [] reader) : reader.result = some value := by
  rcases ready with rfl | ⟨word, rfl, stands⟩
  · rfl
  · exact stands

/-- The characters of a string, taken in by a mode that reads one. -/
theorem run_reading (mode : Reading → Mode N)
    (takes : ∀ {reading reading' : Reading} {c : Char}, reading.next c = some reading' →
      Reader.next ⟨mode reading, stack⟩ c = some ⟨mode reading', stack⟩)
    {reading reading' : Reading} {text : List Char} (reads : text.foldlM Reading.next reading = some reading') :
    Reader.run ⟨mode reading, stack⟩ text = some ⟨mode reading', stack⟩ := by
  induction text generalizing reading with
  | nil =>
    obtain rfl := Option.some.inj reads
    rfl
  | cons c text ih =>
    obtain ⟨middle, first, later⟩ := Option.bind_eq_some_iff.mp (List.foldlM_cons.symm.trans reads)
    rw [run_cons, takes first, Option.bind_some, ih later]

/-- A quote ends a string, or is escaped. -/
theorem not_ends_of_next {reading reading' : Reading} (next : reading.next c = some reading') :
    ¬ (c = '"' ∧ reading.ends) := by
  rintro ⟨rfl, ends⟩
  obtain ⟨read, high, escape⟩ := reading
  cases escape with
  | plain => simp [Reading.next] at next
  | backslash => cases ends
  | unicode digits => cases ends

variable {style : Style} {depth : ℕ}

theorem reads_escapes (read content : List Char) :
    (content.flatMap style.escape).foldlM Reading.next (.of read) = some (.of (read ++ content)) := by
  induction content generalizing read with
  | nil => rw [List.flatMap_nil, List.append_nil]; rfl
  | cons c content ih =>
    rw [List.flatMap_cons, List.foldlM_append, style.escapes]
    exact (ih _).trans (by rw [List.append_assoc, List.singleton_append])

/-- **A string is read back.** -/
theorem run_quoted (mode : Reading → Mode N)
    (takes : ∀ {reading reading' : Reading} {c : Char}, reading.next c = some reading' →
      Reader.next ⟨mode reading, stack⟩ c = some ⟨mode reading', stack⟩) (content : String) :
    Reader.run ⟨mode (.of []), stack⟩ (content.toList.flatMap style.escape ++ '"' :: rest)
      = (Reader.next ⟨mode (.of content.toList), stack⟩ '"').bind (·.run rest) := by
  rw [run_append, run_reading mode takes (reads_escapes [] content.toList), Option.bind_some, run_cons,
    List.nil_append]

theorem Style.blank_opening (style : Style) : ∀ c ∈ style.opening depth, isBlank c = true := fun c member =>
  style.blank depth c (List.mem_append_left _ (List.mem_append_left _ (List.mem_append_left _ member)))

theorem Style.blank_between (style : Style) : ∀ c ∈ style.between depth, isBlank c = true := fun c member =>
  style.blank depth c (List.mem_append_left _ (List.mem_append_left _ (List.mem_append_right _ member)))

theorem Style.blank_closing (style : Style) : ∀ c ∈ style.closing depth, isBlank c = true := fun c member =>
  style.blank depth c (List.mem_append_left _ (List.mem_append_right _ member))

theorem Style.blank_colon (style : Style) : ∀ c ∈ style.colon, isBlank c = true := fun c member =>
  style.blank 0 c (List.mem_append_right _ member)

/-- **A value is read back** where one is expected. -/
def Reads (style : Style) (value : Json N) : Prop :=
  ∀ (depth : ℕ) (stack : List (Frame N)),
    ∃ reader, Reader.run ⟨.value, stack⟩ (style.write depth value) = some reader ∧ Ready value stack reader

theorem run_word {first word : List Char} (words : ∀ c ∈ word, isWord c = true) :
    Reader.run ⟨.word first, stack⟩ word = some (⟨.word (first ++ word), stack⟩ : Reader N) := by
  induction word generalizing first with
  | nil => rw [List.append_nil, run_nil]
  | cons c word ih =>
    obtain ⟨here, later⟩ := List.forall_mem_cons.mp words
    have next : Reader.next ⟨.word first, stack⟩ c = some (⟨.word (first ++ [c]), stack⟩ : Reader N) := if_pos here
    rw [run_cons, next, Option.bind_some, ih later, List.append_assoc, List.singleton_append]

/-- A character of a word begins one. -/
theorem begin_word (word : isWord c = true) : begin stack c = some (⟨.word [c], stack⟩ : Reader N) := by
  have other : ∀ d, isWord d = false → c ≠ d := by
    rintro d plain rfl
    exact absurd word (Bool.eq_false_iff.mp plain)
  have blank : ¬ isBlank c = true := fun blank => absurd word (Bool.eq_false_iff.mp (not_word_of_blank blank))
  unfold begin
  rw [if_neg blank, if_neg (other _ rfl), if_neg (other _ rfl), if_neg (other _ rfl), if_pos word]

theorem reads_word (word : List Char) (some : word ≠ []) (words : ∀ c ∈ word, isWord c = true)
    (stands : ofWord word = .some value) (stack : List (Frame N)) :
    ∃ reader, Reader.run ⟨.value, stack⟩ word = .some reader ∧ Ready value stack reader := by
  obtain ⟨c, rest, rfl⟩ := List.exists_cons_of_ne_nil some
  obtain ⟨here, later⟩ := List.forall_mem_cons.mp words
  have next : Reader.next ⟨.value, stack⟩ c = .some (⟨.word [c], stack⟩ : Reader N) := begin_word here
  refine ⟨⟨.word (c :: rest), stack⟩, ?_, Or.inr ⟨_, rfl, stands⟩⟩
  rw [run_cons, next, Option.bind_some, run_word later]
  rfl

theorem reads_text (content : String) : Reads style (.text content : Json N) := by
  intro depth stack
  refine ⟨⟨.done (.text content), stack⟩, ?_, Or.inl rfl⟩
  show Reader.run _ ('"' :: content.toList.flatMap style.escape ++ ['"']) = _
  rw [List.cons_append, run_cons]
  show Reader.run ⟨.text (.of []), stack⟩ _ = _
  rw [run_quoted .text]
  · show some _ = _
    rw [Reading.of, String.ofList_toList]
  · intro reading reading' c next
    show (if _ then _ else _) = _
    rw [if_neg (not_ends_of_next next), next, Option.map_some]

/-- The rest of a list, after an item. -/
theorem run_items {items : List (Json N)} (reads : ∀ item ∈ items, Reads style item) (before : List (Json N))
    (ready : Ready value (.list before :: stack) reader) :
    reader.run (style.writeItems depth false items)
      = some ⟨.done (.list (before ++ value :: items)), stack⟩ := by
  induction items generalizing before value reader with
  | nil => exact ready.run style.blank_closing rfl
  | cons item items ih =>
    obtain ⟨first, later⟩ := List.forall_mem_cons.mp reads
    obtain ⟨reader', reading, ready'⟩ := first (depth + 1) (.list (before ++ [value]) :: stack)
    have written : style.writeItems depth false (item :: items)
        = [] ++ ',' :: (style.between (depth + 1) ++ (style.write (depth + 1) item
          ++ style.writeItems depth false items)) := by
      rw [List.nil_append, ← List.append_assoc]
      rfl
    have comma : follow value (.list before :: stack) ',' = some ⟨.value, .list (before ++ [value]) :: stack⟩ := rfl
    rw [written, ready.run (fun _ none => absurd none List.not_mem_nil) rfl, comma, Option.bind_some,
      run_blanks (fun _ => quiet_value) style.blank_between, run_append, reading,
      Option.bind_some, ih later _ ready', List.append_assoc]
    rfl

/-- A member of an object, where a key is expected. -/
theorem run_member {mode : Mode N} {before : List (String × Json N)} (reads : Reads style value) (key : String)
    (quiet : ∀ c, isBlank c = true → Reader.next ⟨mode, stack⟩ c = some ⟨mode, stack⟩)
    (opens : Reader.next ⟨mode, stack⟩ '"' = some ⟨.keyText before (.of []), stack⟩)
    (blank : ∀ c ∈ blanks, isBlank c = true) (depth : ℕ) :
    ∃ reader, Ready value (.object before key :: stack) reader ∧ ∀ rest,
      Reader.run ⟨mode, stack⟩ (blanks ++ style.quoted key ++ ':' :: style.colon ++ style.write depth value ++ rest)
        = reader.run rest := by
  obtain ⟨reader, reading, ready⟩ := reads depth (.object before key :: stack)
  refine ⟨reader, ready, fun rest => ?_⟩
  have colon : ∀ c, isBlank c = true → Reader.next ⟨.colon before key, stack⟩ c
      = some (⟨.colon before key, stack⟩ : Reader N) := fun c blank => if_pos blank
  have takes : ∀ {reading reading' : Reading} {c : Char}, reading.next c = some reading' →
      Reader.next ⟨.keyText before reading, stack⟩ c = some (⟨.keyText before reading', stack⟩ : Reader N) := by
    intro reading reading' c next
    show (if _ then _ else _) = _
    rw [if_neg (not_ends_of_next next), next, Option.map_some]
  have closes : Reader.next ⟨.keyText before (.of key.toList), stack⟩ '"'
      = some (⟨.colon before key, stack⟩ : Reader N) := by
    show some _ = _
    rw [Reading.of, String.ofList_toList]
  have after : Reader.next ⟨.colon before key, stack⟩ ':'
      = some (⟨.value, .object before key :: stack⟩ : Reader N) := rfl
  rw [Style.quoted]
  simp only [List.append_assoc, List.cons_append, List.nil_append]
  rw [run_blanks quiet blank, run_cons, opens, Option.bind_some, run_quoted (.keyText before) takes, closes,
    Option.bind_some, run_cons, after, Option.bind_some, run_blanks (fun _ => quiet_value) style.blank_colon,
    run_append, reading, Option.bind_some]

/-- A key that is none of those before it is set last. -/
theorem set_last {before members : List (String × Json N)} {key : String}
    (distinct : ((before ++ (key, value) :: members).map Prod.fst).Nodup) :
    Dict.set before key value = before ++ [(key, value)] := by
  rw [List.map_append, List.map_cons, List.nodup_middle] at distinct
  exact Dict.set_of_not_mem fun member => (List.nodup_cons.mp distinct).1 (List.mem_append_left _ member)

/-- The rest of an object, after a member. -/
theorem run_members {members : List (String × Json N)} (reads : ∀ member ∈ members, Reads style member.2)
    (before : List (String × Json N)) (key : String)
    (distinct : ((before ++ (key, value) :: members).map Prod.fst).Nodup)
    (ready : Ready value (.object before key :: stack) reader) :
    reader.run (style.writeMembers depth false members)
      = some ⟨.done (.object (before ++ (key, value) :: members)), stack⟩ := by
  induction members generalizing before key value reader with
  | nil =>
    have brace : follow value (.object before key :: stack) '\x7d'
        = some ⟨.done (.object (Dict.set before key value)), stack⟩ := rfl
    refine (ready.run style.blank_closing rfl).trans ?_
    rw [brace, set_last distinct]
    rfl
  | cons member members ih =>
    obtain ⟨next, item⟩ := member
    obtain ⟨first, later⟩ := List.forall_mem_cons.mp reads
    have comma : follow value (.object before key :: stack) ','
        = some ⟨.key (Dict.set before key value), stack⟩ := rfl
    have quiet : ∀ c, isBlank c = true → Reader.next ⟨.key (before ++ [(key, value)]), stack⟩ c
      = some (⟨.key (before ++ [(key, value)]), stack⟩ : Reader N) := fun c blank => if_pos blank
    obtain ⟨reader', ready', goes⟩ := run_member first next quiet rfl style.blank_between (depth + 1)
    have written : style.writeMembers depth false ((next, item) :: members)
        = [] ++ ',' :: (style.between (depth + 1) ++ style.quoted next ++ ':' :: style.colon
          ++ style.write (depth + 1) item ++ style.writeMembers depth false members) := rfl
    have all : before ++ (key, value) :: (next, item) :: members
        = before ++ [(key, value)] ++ (next, item) :: members := List.append_cons _ _ _
    rw [written, ready.run (fun _ none => absurd none List.not_mem_nil) rfl, comma, Option.bind_some,
      set_last distinct, goes, ih later _ next (all ▸ distinct) ready', all]

/-- What a written value begins with. -/
theorem write_head (style : Style) (depth : ℕ) (value : Json N) :
    ∃ c rest, style.write depth value = c :: rest ∧ isBlank c = false ∧ c ≠ ']' := by
  cases value with
  | null => exact ⟨_, _, rfl, rfl, by decide⟩
  | bool value => cases value <;> exact ⟨_, _, rfl, rfl, by decide⟩
  | number value =>
    obtain ⟨c, rest, shown⟩ := List.exists_cons_of_ne_nil (Numeral.nonempty value)
    have numeral : isNumeral c = true :=
      List.all_eq_true.mp (Numeral.numeral value) c (shown ▸ List.mem_cons_self)
    refine ⟨c, rest, shown, ?_, ?_⟩
    · by_contra blank
      have plain := not_word_of_blank (Bool.not_eq_false _ ▸ blank)
      rw [isWord, numeral, Bool.or_true] at plain
      cases plain
    · rintro rfl
      cases numeral
  | text content => exact ⟨_, _, rfl, rfl, by decide⟩
  | list items => exact ⟨_, _, rfl, rfl, by decide⟩
  | object members => exact ⟨_, _, rfl, rfl, by decide⟩

theorem reads_list {items : List (Json N)} (reads : ∀ item ∈ items, Reads style item) :
    Reads style (.list items) := by
  intro depth stack
  refine ⟨_, ?_, Or.inl rfl⟩
  show Reader.run ⟨.firstItem, stack⟩ (style.writeItems depth true items) = _
  cases items with
  | nil => rfl
  | cons item items =>
    obtain ⟨first, later⟩ := List.forall_mem_cons.mp reads
    obtain ⟨reader, reading, ready⟩ := first (depth + 1) (.list [] :: stack)
    obtain ⟨c, rest, written, plain, other⟩ := write_head style (depth + 1) item
    have quiet : ∀ c, isBlank c = true → Reader.next ⟨.firstItem, stack⟩ c
        = some (⟨.firstItem, stack⟩ : Reader N) := fun c blank => if_pos blank
    -- A character that begins an item begins it as it would any value.
    have same : Reader.next ⟨.firstItem, stack⟩ c = Reader.next (⟨.value, .list [] :: stack⟩ : Reader N) c := by
      show (if _ then _ else if _ then _ else _) = _
      rw [if_neg (Bool.eq_false_iff.mp plain), if_neg other]
      rfl
    have begins : Reader.run ⟨.firstItem, stack⟩ (style.write (depth + 1) item) = some reader := by
      rw [← reading, written, run_cons, run_cons, same]
    show Reader.run _ (style.opening (depth + 1) ++ style.write (depth + 1) item ++ _) = _
    rw [List.append_assoc, run_blanks quiet style.blank_opening, run_append, begins, Option.bind_some,
      run_items later [] ready]
    rfl

theorem reads_object {members : List (String × Json N)} (reads : ∀ member ∈ members, Reads style member.2)
    (distinct : (members.map Prod.fst).Nodup) : Reads style (.object members) := by
  intro depth stack
  refine ⟨_, ?_, Or.inl rfl⟩
  show Reader.run ⟨.firstKey, stack⟩ (style.writeMembers depth true members) = _
  cases members with
  | nil => rfl
  | cons member members =>
    obtain ⟨key, value⟩ := member
    obtain ⟨first, later⟩ := List.forall_mem_cons.mp reads
    have quiet : ∀ c, isBlank c = true → Reader.next ⟨.firstKey, stack⟩ c
        = some (⟨.firstKey, stack⟩ : Reader N) := fun c blank => if_pos blank
    obtain ⟨reader, ready, goes⟩ := run_member first key quiet rfl style.blank_opening (depth + 1)
    exact (goes _).trans (run_members later [] key distinct ready)

end Run

theorem keyedItems_iff {items : List (Json N)} :
    keyedItems items = true ↔ ∀ item ∈ items, keyed item = true := by
  induction items with
  | nil => exact iff_of_true rfl fun _ none => absurd none List.not_mem_nil
  | cons item items ih => rw [keyedItems, Bool.and_eq_true, ih, List.forall_mem_cons]

theorem keyedMembers_iff {members : List (String × Json N)} :
    keyedMembers members = true ↔ ∀ member ∈ members, keyed member.2 = true := by
  induction members with
  | nil => exact iff_of_true rfl fun _ none => absurd none List.not_mem_nil
  | cons member members ih => rw [keyedMembers, Bool.and_eq_true, ih, List.forall_mem_cons]

theorem reads_written (style : Style) (value : Json N) (distinct : keyed value = true) : Reads style value := by
  induction value using ind with
  | null => exact fun _ => reads_word "null".toList (by decide) (List.all_eq_true.mp rfl) rfl
  | bool value =>
    cases value with
    | false => exact fun _ => reads_word "false".toList (by decide) (List.all_eq_true.mp rfl) rfl
    | true => exact fun _ => reads_word "true".toList (by decide) (List.all_eq_true.mp rfl) rfl
  | number value =>
    intro depth
    have numeral := List.all_eq_true.mp (Numeral.numeral value)
    have other : ∀ word : List Char, ¬ word.all isNumeral → Numeral.text value ≠ word := by
      rintro word letters rfl
      exact letters (Numeral.numeral value)
    refine reads_word (Numeral.text value) (Numeral.nonempty value) (fun c member => ?_) ?_
    · rw [isWord, numeral c member, Bool.or_true]
    · rw [ofWord, if_neg (other _ (by decide)), if_neg (other _ (by decide)), if_neg (other _ (by decide)),
        Numeral.read_text]
      rfl
  | text content => exact reads_text content
  | list items ih => exact reads_list fun item member => ih item member (keyedItems_iff.mp distinct item member)
  | object members ih =>
    obtain ⟨keys, values⟩ := (Bool.and_eq_true _ _).mp distinct
    exact reads_object (fun member among => ih member among (keyedMembers_iff.mp values member among))
      (of_decide_eq_true keys)

variable {style : Style} {value other : Json N}

/-- **What is written is read back**, by any writer. -/
theorem loads_dumps (style : Style) (distinct : keyed value = true) : loads (style.dumps value) = some value := by
  obtain ⟨reader, reading, ready⟩ := reads_written style value distinct 0 []
  rw [loads, Reader.start, Style.dumps, reading, Option.bind_some, ready.result]

/-- **Different values have different texts.** -/
theorem dumps_injective (distinct : keyed value = true) (distinct' : keyed other = true)
    (same : style.dumps value = style.dumps other) : value = other := by
  refine Option.some.inj ?_
  rw [← loads_dumps style distinct, ← loads_dumps style distinct', same]

end Json

end SuiteCloud.Library
