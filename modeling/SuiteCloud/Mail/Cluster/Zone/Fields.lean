/-
**The fields of a record.**

* `Record`, `Record.row` — a record, and the row it calls for.
* `Spelling` — its fields, as a zone file writes them.
* `IsLine` — a line of its fields; `matchRecordLine_line` — **the record is read off it**.
* `toRow_line` — **and its row is made**.
-/

import SuiteCloud.Mail.Cluster.Zone.Quotes

namespace SuiteCloud.Mail.Cluster.Zone

open SuiteCloud.Library

/-! ## Records -/

/-- A field without quotes: a name. -/
def IsName (text : List Char) : Prop := text ≠ [] ∧ ∀ c ∈ text, isSpace c = false ∧ c ∉ ['"', ';', '(', ')']

/-- What a record says. -/
inductive Data
  | mx (preference : ℕ) (exchange : List Char)
  | txt (text : List Char)
  | cname (target : List Char)
  | srv (priority weight port : ℕ) (target : List Char)

namespace Data

def type : Data → List Char
  | mx .. => "MX".toList
  | txt _ => "TXT".toList
  | cname _ => "CNAME".toList
  | srv .. => "SRV".toList

def Named : Data → Prop
  | mx _ exchange => IsName exchange
  | txt _ => True
  | cname target => IsName target
  | srv _ _ _ target => IsName target

/-- The content it calls for. -/
def content (data : Data) (host spfInclude : List Char) : Option Content :=
  match data with
  | mx preference exchange => some ⟨preference, 0, 0, withoutDots exchange, .mx⟩
  | txt text => (txtContent host text spfInclude).map fun found => ⟨0, 0, 0, found.1, found.2⟩
  | cname target => (cnameCategory host).map fun category => ⟨0, 0, 0, withoutDots target, category⟩
  | srv priority weight port target => some ⟨priority, weight, port, withoutDots target, .srv⟩

end Data

/-- **A record.** -/
structure Record where
  owner : List Char
  ttl : Option ℕ
  data : Data
  named : IsName owner
  /-- No directive of the file. -/
  undirected : owner.head? ≠ some '$'
  targeted : data.Named

/-- **The row a record calls for.** -/
def Record.row (lower : List Char → List Char) (domain spfInclude : List Char) (defaultTtl : ℕ)
    (record : Record) : Option Row :=
  (relativeHost (lower (withoutDots record.owner)) domain).bind fun host =>
    (record.data.content host spfInclude).bind (rowOf record.data.type host record.ttl defaultTtl)

/-! ## Fields -/

/-- A number in decimal. -/
def WritesNumber (digits : List Char) (n : ℕ) : Prop :=
  digits ≠ [] ∧ (∀ c ∈ digits, c.isDigit = true) ∧ Nat.ofDigitChars 10 digits 0 = n

/-- **The fields of what a record says**; a text is split into strings, quoted. -/
inductive Data.Written : Data → List (List Char) → Prop
  | mx {digits exchange : List Char} {preference : ℕ} (writes : WritesNumber digits preference) :
      Written (.mx preference exchange) [digits, exchange]
  | txt {strings : List (List Char)} {text : List Char} (some : strings ≠ []) (whole : strings.flatten = text) :
      Written (.txt text) (strings.map doubleQuoted)
  | cname {target : List Char} : Written (.cname target) [target]
  | srv {first second third target : List Char} {priority weight port : ℕ}
      (writes : WritesNumber first priority) (writes' : WritesNumber second weight)
      (writes'' : WritesNumber third port) :
      Written (.srv priority weight port target) [first, second, third, target]

/-- **The fields of a record**: the TTL and the class where they are written. -/
structure Spelling (record : Record) where
  digits : Option (List Char)
  inClass : Bool
  data : List (List Char)
  ttl : Option.Rel WritesNumber digits record.ttl
  written : record.data.Written data

namespace Spelling

variable {record : Record} (spelling : Spelling record)

/-- Up to the type. -/
def head : List (List Char) :=
  record.owner ::
    (spelling.digits.toList ++ ((if spelling.inClass then ["IN".toList] else []) ++ [record.data.type]))

def fields : List (List Char) := spelling.head ++ spelling.data

/-- **A line of the fields.** `_to_row` parts an MX record's data at a space. -/
def IsLine (line : List Char) : Prop :=
  ∃ head gap data, Spaced IsBlank spelling.head head ∧ IsBlank gap ∧ Spaced IsBlank spelling.data data ∧
    (record.data.type = "MX".toList → ' ' ∈ data) ∧ line = head ++ gap ++ data

end Spelling

variable {field text rest gap line digits name : List Char} {fields : List (List Char)} {n : ℕ} {c : Char}

/-! ### Solid fields -/

theorem isSolid_plain (some : text ≠ []) (plain : ∀ c ∈ text, isSpace c = false) : IsSolid text :=
  ⟨some, fun c first => plain c (List.mem_of_mem_head? first),
    fun c last => plain c (List.mem_of_getLast? last)⟩

theorem IsName.isSolid (named : IsName name) : IsSolid name :=
  isSolid_plain named.1 fun c member => (named.2 c member).1

theorem isSpace_of_isDigit (digit : c.isDigit = true) : isSpace c = false := by
  have inside : 48 ≤ c.toNat ∧ c.toNat ≤ 57 := by
    simp only [Char.isDigit, Bool.and_eq_true, decide_eq_true_eq] at digit
    exact ⟨digit.1, digit.2⟩
  simp only [isSpace, List.mem_cons, List.not_mem_nil, or_false, Bool.or_eq_false_iff,
    decide_eq_false_iff_not]
  omega

theorem WritesNumber.isName (writes : WritesNumber digits n) : IsName digits := by
  refine ⟨writes.1, fun c member => ⟨isSpace_of_isDigit (writes.2.1 c member), fun special => ?_⟩⟩
  have digit := writes.2.1 c member
  simp only [List.mem_cons, List.not_mem_nil, or_false] at special
  rcases special with rfl | rfl | rfl | rfl <;> exact absurd digit (by decide)

theorem isSolid_doubleQuoted (content : List Char) : IsSolid (doubleQuoted content) := by
  have quote : ∀ c ∈ some '"', isSpace c = false := by
    rintro _ ⟨⟩
    decide
  refine ⟨List.cons_ne_nil _ _, fun c first => quote c first, fun c last => quote c ?_⟩
  rwa [doubleQuoted, List.getLast?_concat] at last

theorem type_mem (data : Data) : data.type ∈ ["MX".toList, "TXT".toList, "CNAME".toList, "SRV".toList] := by
  cases data
  · exact List.mem_cons_self
  · exact List.mem_cons_of_mem _ List.mem_cons_self
  · exact List.mem_cons_of_mem _ (List.mem_cons_of_mem _ List.mem_cons_self)
  · exact List.mem_cons_of_mem _ (List.mem_cons_of_mem _ (List.mem_cons_of_mem _ List.mem_cons_self))

theorem isUpper_type (data : Data) : data.type ≠ [] ∧ ∀ c ∈ data.type, c.isUpper = true := by
  have all : ∀ type ∈ ["MX".toList, "TXT".toList, "CNAME".toList, "SRV".toList],
      type ≠ [] ∧ type.all Char.isUpper = true := by decide
  obtain ⟨written, upper⟩ := all _ (type_mem data)
  exact ⟨written, List.all_eq_true.mp upper⟩

theorem isSpace_of_isUpper (upper : c.isUpper = true) : isSpace c = false := by
  have inside : 65 ≤ c.toNat ∧ c.toNat ≤ 90 := of_decide_eq_true upper
  simp only [isSpace, List.mem_cons, List.not_mem_nil, or_false, Bool.or_eq_false_iff,
    decide_eq_false_iff_not]
  omega

theorem isSolid_type (data : Data) : IsSolid data.type :=
  isSolid_plain (isUpper_type data).1 fun c member => isSpace_of_isUpper ((isUpper_type data).2 c member)

theorem spaced_isSolid (solid : ∀ field ∈ fields, IsSolid field) (spaced : Spaced IsBlank fields text) :
    IsSolid text := by
  induction spaced with
  | one field => exact solid field List.mem_cons_self
  | cons field gap isGap later ih =>
    obtain ⟨first, others⟩ := List.forall_mem_cons.mp solid
    have after := ih others
    refine ⟨List.append_ne_nil_of_right_ne_nil _ after.written, fun c head => first.first c ?_,
      fun c last => after.last c ?_⟩
    · rwa [List.append_assoc, List.head?_append_of_ne_nil _ first.written] at head
    · rwa [List.getLast?_append_of_ne_nil _ after.written] at last

namespace Data.Written

variable {data : Data}

theorem ne_nil (written : data.Written fields) : fields ≠ [] := by
  cases written with
  | txt some whole => exact fun none => some (List.map_eq_nil_iff.mp none)
  | _ => exact List.cons_ne_nil _ _

theorem isSolid (written : data.Written fields) (named : data.Named) : ∀ field ∈ fields, IsSolid field := by
  cases written with
  | mx writes =>
    simp only [List.forall_mem_cons]
    exact ⟨writes.isName.isSolid, named.isSolid, List.forall_mem_nil _⟩
  | txt some whole =>
    rintro _ member
    obtain ⟨content, -, rfl⟩ := List.mem_map.mp member
    exact isSolid_doubleQuoted content
  | cname => exact List.forall_mem_singleton.mpr named.isSolid
  | srv first second third =>
    simp only [List.forall_mem_cons]
    exact ⟨first.isName.isSolid, second.isName.isSolid, third.isName.isSolid, named.isSolid,
      List.forall_mem_nil _⟩

theorem space_mem (written : data.Written fields) (mx : data.type = "MX".toList) :
    ' ' ∈ [' '].intercalate fields := by
  cases written with
  | mx writes =>
    rw [List.intercalate_cons_cons]
    exact List.mem_append_left _ (List.mem_append_right _ (List.mem_singleton_self _))
  | txt some whole =>
    have other : "TXT".toList ≠ "MX".toList := by decide
    exact absurd mx other
  | cname =>
    have other : "CNAME".toList ≠ "MX".toList := by decide
    exact absurd mx other
  | srv =>
    have other : "SRV".toList ≠ "MX".toList := by decide
    exact absurd mx other

end Data.Written

/-! ## The record of a line -/

theorem takeSome_append {kind : Char → Bool} (written : text ≠ []) (all : ∀ c ∈ text, kind c = true)
    (stops : ∀ c ∈ rest.head?, kind c = false) : takeSome kind (text ++ rest) = some (text, rest) := by
  have behind : rest.takeWhile kind = [] ∧ rest.dropWhile kind = rest := by
    cases rest with
    | nil => exact ⟨rfl, rfl⟩
    | cons c rest =>
      have stop : ¬ kind c = true := by simp [stops c rfl]
      exact ⟨List.takeWhile_cons_of_neg stop, List.dropWhile_cons_of_neg stop⟩
  rw [takeSome, List.takeWhile_append_of_pos all, List.dropWhile_append_of_pos all, behind.1, behind.2,
    List.append_nil, if_neg written]

theorem takeSome_none {kind : Char → Bool} (stops : ∀ c ∈ text.head?, kind c = false) :
    takeSome kind text = none := by
  cases text with
  | nil => rfl
  | cons c text =>
    have stop : ¬ kind c = true := by simp [stops c rfl]
    exact if_pos (List.takeWhile_cons_of_neg stop)

theorem IsBlank.head (blank : IsBlank gap) (rest : List Char) :
    ∀ c ∈ (gap ++ rest).head?, c = ' ' ∨ c = '\t' := by
  intro c first
  rw [List.head?_append_of_ne_nil _ blank.1] at first
  exact blank.2 c (List.mem_of_mem_head? first)

theorem takeSome_blank (blank : IsBlank gap) (solid : IsSolid rest) :
    takeSome isSpace (gap ++ rest) = some (gap, rest) :=
  takeSome_append blank.1 blank.2.spaces solid.first

theorem matchType_append (data : Data) (blank : IsBlank gap) (solid : IsSolid rest) :
    matchType (data.type ++ gap ++ rest) = some (data.type, rest) := by
  obtain ⟨written, upper⟩ := isUpper_type data
  have stops : ∀ c ∈ (gap ++ rest).head?, c.isUpper = false := by
    intro c first
    rcases blank.head rest c first with rfl | rfl <;> rfl
  have type := takeSome_append written upper stops
  have space := takeSome_blank blank solid
  rw [matchType, List.append_assoc, type]
  simp only [Option.bind_eq_bind, Option.bind_some, space]
  rw [if_pos solid.written]

theorem matchClass_append {head : List Char} (data : Data) (inClass : Bool)
    (spaced : Spaced IsBlank ((if inClass then ["IN".toList] else []) ++ [data.type]) head)
    (blank : IsBlank gap) (solid : IsSolid rest) : matchClass (head ++ gap ++ rest) = some (data.type, rest) := by
  cases inClass with
  | false =>
    obtain rfl := spaced_singleton spaced
    cases data <;> exact matchType_append _ blank solid
  | true =>
    obtain ⟨between, later, apart, last, rfl⟩ := spaced_cons (List.cons_ne_nil _ _) spaced
    obtain rfl := spaced_singleton last
    have typed : IsSolid (data.type ++ gap ++ rest) := by
      refine ⟨?_, fun c first => ?_, fun c last => solid.last c ?_⟩
      · exact List.append_ne_nil_of_right_ne_nil _ solid.written
      · rw [List.append_assoc, List.head?_append_of_ne_nil _ (isSolid_type data).written] at first
        exact (isSolid_type data).first c first
      · rwa [List.getLast?_append_of_ne_nil _ solid.written] at last
    have shape : "IN".toList ++ between ++ data.type ++ gap ++ rest
        = 'I' :: 'N' :: (between ++ (data.type ++ gap ++ rest)) := by
      simp only [List.append_assoc]
      rfl
    rw [shape]
    show ((takeSome isSpace (between ++ (data.type ++ gap ++ rest))).bind
      fun blanks => matchType blanks.2).or _ = _
    rw [takeSome_blank apart typed, Option.bind_some, matchType_append data blank solid, Option.some_or]

theorem matchTtl_some {after : List Char} (writes : WritesNumber digits n) (blank : IsBlank gap)
    (solid : IsSolid after) : matchTtl (digits ++ gap ++ after) = some (digits, after) := by
  have stops : ∀ c ∈ (gap ++ after).head?, c.isDigit = false := by
    intro c first
    rcases blank.head after c first with rfl | rfl <;> rfl
  rw [matchTtl, List.append_assoc, takeSome_append writes.1 writes.2.1 stops]
  simp only [Option.bind_eq_bind, Option.bind_some, takeSome_blank blank solid]

theorem matchTtl_none (stops : ∀ c ∈ text.head?, c.isDigit = false) : matchTtl text = none := by
  rw [matchTtl, takeSome_none stops]
  rfl

namespace Spelling

variable {record : Record} (spelling : Spelling record)

theorem writes {digits : List Char} (written : spelling.digits = some digits) :
    ∃ n, record.ttl = some n ∧ WritesNumber digits n := by
  have given := spelling.ttl
  rw [written] at given
  generalize record.ttl = stored at given
  cases given with
  | some writes => exact ⟨_, rfl, writes⟩

theorem ttl_eq_none (absent : spelling.digits = none) : record.ttl = none := by
  have given := spelling.ttl
  rw [absent] at given
  generalize record.ttl = stored at given
  cases given with
  | none => rfl

theorem plain_class {inClass : Bool} (data : Data) :
    ∀ field ∈ (if inClass then ["IN".toList] else []) ++ [data.type],
      field ≠ [] ∧ ∀ c ∈ field, isSpace c = false := by
  intro field member
  obtain named | typed := List.mem_append.mp member
  · cases inClass with
    | false => exact absurd named List.not_mem_nil
    | true =>
      rw [List.mem_singleton.mp named]
      exact ⟨by decide, forall_mem_of_all (by decide)⟩
  · rw [List.mem_singleton.mp typed]
    exact ⟨(isUpper_type data).1, fun c member => isSpace_of_isUpper ((isUpper_type data).2 c member)⟩

theorem plain_head : ∀ field ∈ spelling.head, field ≠ [] ∧ ∀ c ∈ field, isSpace c = false := by
  have plain {name : List Char} (named : IsName name) : name ≠ [] ∧ ∀ c ∈ name, isSpace c = false :=
    ⟨named.1, fun c member => (named.2 c member).1⟩
  refine List.forall_mem_cons.mpr ⟨plain record.named, List.forall_mem_append.mpr ⟨fun field member => ?_,
    plain_class record.data⟩⟩
  obtain ⟨n, -, writes⟩ := spelling.writes (Option.mem_toList.mp member)
  exact plain writes.isName

theorem isSolid_class {inClass : Bool} (data : Data) :
    ∀ field ∈ (if inClass then ["IN".toList] else []) ++ [data.type], IsSolid field := fun field member =>
  isSolid_plain (plain_class data field member).1 (plain_class data field member).2

theorem isSolid_head : ∀ field ∈ spelling.head, IsSolid field := fun field member =>
  isSolid_plain (spelling.plain_head field member).1 (spelling.plain_head field member).2

theorem isSolid_data : ∀ field ∈ spelling.data, IsSolid field := spelling.written.isSolid record.targeted

end Spelling

theorem isSolid_append {before after : List Char} (solid : IsSolid before) (solid' : IsSolid after) :
    IsSolid (before ++ gap ++ after) := by
  refine ⟨List.append_ne_nil_of_right_ne_nil _ solid'.written, fun c first => solid.first c ?_,
    fun c last => solid'.last c ?_⟩
  · rwa [List.append_assoc, List.head?_append_of_ne_nil _ solid.written] at first
  · rwa [List.getLast?_append_of_ne_nil _ solid'.written] at last

theorem head_class {inClass : Bool} {data : Data} {head : List Char}
    (spaced : Spaced IsBlank ((if inClass then ["IN".toList] else []) ++ [data.type]) head)
    (rest : List Char) :
    ∀ c ∈ (head ++ rest).head?, c.isDigit = false := by
  have upper : ∀ c : Char, c.isUpper = true → c.isDigit = false := by
    intro c upper
    have inside : 65 ≤ c.toNat ∧ c.toNat ≤ 90 := of_decide_eq_true upper
    refine Bool.eq_false_iff.mpr fun digit => ?_
    simp only [Char.isDigit, Bool.and_eq_true, decide_eq_true_eq] at digit
    have most : c.toNat ≤ 57 := digit.2
    omega
  intro c first
  cases inClass with
  | false =>
    obtain rfl := spaced_singleton spaced
    rw [List.head?_append_of_ne_nil _ (isUpper_type data).1] at first
    exact upper c ((isUpper_type data).2 c (List.mem_of_mem_head? first))
  | true =>
    obtain ⟨gap, later, -, -, rfl⟩ := spaced_cons (List.cons_ne_nil _ _) spaced
    obtain rfl : 'I' = c := Option.some.inj first
    rfl

theorem matchRecordLine_eq {lower : List Char → List Char} {after : List Char}
    (owner : takeSome (!isSpace ·) line = some (name, after))
    (space : takeSome isSpace after = some (gap, rest)) :
    matchRecordLine lower line = (matchClass ((matchTtl rest).elim rest Prod.snd)).map fun typed =>
      ⟨lower (withoutDots name), (matchTtl rest).map fun ttl => Nat.ofDigitChars 10 ttl.1 0, typed.1,
        stripped typed.2⟩ := by
  simp only [matchRecordLine, owner, space, Option.bind_eq_bind, Option.bind_some]
  rw [Option.map_eq_bind]
  cases matchTtl rest with
  | none => rfl
  | some ttl => rfl

theorem matchRecordLine_line {record : Record} {spelling : Spelling record} (lower : List Char → List Char)
    {head data : List Char} (headed : Spaced IsBlank spelling.head head) (apart : IsBlank gap)
    (spaced : Spaced IsBlank spelling.data data) :
    matchRecordLine lower (head ++ gap ++ data)
      = some ⟨lower (withoutDots record.owner), record.ttl, record.data.type, data⟩ := by
  have last : IsSolid data := spaced_isSolid spelling.isSolid_data spaced
  obtain ⟨between, later, blank, behind, rfl⟩ := spaced_cons (by simp) headed
  have solid : IsSolid (later ++ gap ++ data) := by
    refine isSolid_append (spaced_isSolid (fun field member => ?_) behind) last
    exact spelling.isSolid_head field (List.mem_cons_of_mem _ member)
  have owner : takeSome (!isSpace ·) (record.owner ++ (between ++ (later ++ gap ++ data)))
      = some (record.owner, between ++ (later ++ gap ++ data)) := by
    have plain : ∀ c ∈ record.owner, (!isSpace c) = true := fun c member => by
      simp [(record.named.2 c member).1]
    refine takeSome_append record.named.1 plain fun c first => ?_
    rcases blank.head _ c first with rfl | rfl <;> rfl
  have shape : record.owner ++ between ++ later ++ gap ++ data
      = record.owner ++ (between ++ (later ++ gap ++ data)) := by simp only [List.append_assoc]
  rw [shape, matchRecordLine_eq owner (takeSome_blank blank solid)]
  cases written : spelling.digits with
  | none =>
    rw [written] at behind
    have absent : matchTtl (later ++ gap ++ data) = none := by
      rw [List.append_assoc]
      exact matchTtl_none (head_class behind _)
    rw [absent, Option.elim_none, matchClass_append record.data spelling.inClass behind apart last,
      Option.map_some, Option.map_none, spelling.ttl_eq_none written, stripped_solid last]
  | some digits =>
    rw [written] at behind
    obtain ⟨n, stored, writes⟩ := spelling.writes written
    obtain ⟨between', later', blank', behind', rfl⟩ := spaced_cons (by simp) behind
    have solid' : IsSolid (later' ++ gap ++ data) :=
      isSolid_append (spaced_isSolid (Spelling.isSolid_class record.data) behind') last
    have present : matchTtl (digits ++ between' ++ later' ++ gap ++ data)
        = some (digits, later' ++ gap ++ data) := by
      have grouped : digits ++ between' ++ later' ++ gap ++ data
          = digits ++ between' ++ (later' ++ gap ++ data) := by simp only [List.append_assoc]
      rw [grouped, matchTtl_some writes blank' solid']
    rw [present, Option.elim_some, matchClass_append record.data spelling.inClass behind' apart last,
      Option.map_some, Option.map_some, stored, writes.2.2, stripped_solid last]

/-! ## The row of a line -/

theorem parseInt_unsigned (core : stripped text = c :: rest) (minus : c ≠ '-') (plus : c ≠ '+') {value : ℤ}
    (unsigned : (if ((c :: rest).splitOn '_').all fun digits => digits ≠ [] && digits.all Char.isDigit then
      some (Nat.ofDigitChars 10 ((c :: rest).filter (· ≠ '_')) 0 : ℤ) else none) = some value) :
    parseInt text = some value := by
  rw [parseInt, core]
  split
  next negative digits read =>
  split at read
  · next same => exact absurd (List.cons.inj same).1 minus
  · next same => exact absurd (List.cons.inj same).1 plus
  · obtain ⟨rfl, rfl⟩ := Prod.mk.inj read
    exact unsigned

theorem parseInt_written {after : List Char} (writes : WritesNumber digits n)
    (spaces : ∀ c ∈ after, isSpace c = true) :
    parseInt (digits ++ after) = some (n : ℤ) := by
  have core : stripped ([] ++ digits ++ after) = digits :=
    stripped_between (List.forall_mem_nil _) spaces writes.isName.isSolid
  have plain : ∀ c ∈ digits, c ≠ '_' ∧ c ≠ '-' ∧ c ≠ '+' := by
    intro c member
    have digit := writes.2.1 c member
    refine ⟨?_, ?_, ?_⟩ <;> rintro rfl <;> exact absurd digit (by decide)
  have whole : digits.splitOn '_' = [digits] :=
    List.splitOnP_eq_singleton fun c member => by simp [(plain c member).1]
  have kept : digits.filter (· ≠ '_') = digits :=
    List.filter_eq_self.mpr fun c member => decide_eq_true (plain c member).1
  have all : ((digits.splitOn '_').all fun part => part ≠ [] && part.all Char.isDigit) = true := by
    rw [whole, List.all_cons, List.all_nil, Bool.and_true, Bool.and_eq_true]
    exact ⟨decide_eq_true writes.1, List.all_eq_true.mpr writes.2.1⟩
  rw [List.nil_append] at core
  cases digits with
  | nil => exact absurd rfl writes.1
  | cons c rest =>
    obtain ⟨-, minus, plus⟩ := plain c List.mem_cons_self
    refine parseInt_unsigned core minus plus ?_
    rw [if_pos all, kept, writes.2.2]

section Content

variable {what : Data} {rdata host spfInclude : List Char} {ttl : Option ℕ}

theorem IsBlank.shell (blank : IsBlank gap) : gap ≠ [] ∧ ∀ c ∈ gap, Shlex.isBlank c = true := by
  refine ⟨blank.1, fun c member => ?_⟩
  rcases blank.2 c member with rfl | rfl <;> rfl

theorem contentOf_mx {exchange : List Char} {preference : ℕ} (writes : WritesNumber digits preference)
    (named : IsName exchange) (blank : IsBlank gap) (parted : ' ' ∈ digits ++ gap ++ exchange) :
    contentOf ⟨name, ttl, "MX".toList, digits ++ gap ++ exchange⟩ host spfInclude
      = some ((Data.mx preference exchange).content host spfInclude) := by
  have free {field : List Char} (named : IsName field) : ∀ c ∈ field, c ≠ ' ' := by
    rintro _ member rfl
    exact absurd (named.2 _ member).1 (by decide)
  have inside : ' ' ∈ gap := by
    rcases List.mem_append.mp parted with left | right
    · exact (List.mem_append.mp left).resolve_left fun member => free writes.isName _ member rfl
    · exact absurd rfl (free named _ right)
  obtain ⟨tabs, more, rfl, none⟩ := List.eq_append_cons_of_mem inside
  have spaces := List.forall_mem_append.mp blank.2.spaces
  have before : ∀ c ∈ digits ++ tabs, decide (c ≠ ' ') = true := by
    refine List.forall_mem_append.mpr ⟨fun c member => decide_eq_true (free writes.isName c member),
      fun c member => decide_eq_true ?_⟩
    rintro rfl
    exact none member
  have shape : digits ++ (tabs ++ ' ' :: more) ++ exchange
      = (digits ++ tabs) ++ (' ' :: (more ++ exchange)) := by
    simp only [List.append_assoc, List.cons_append]
  have taken : (digits ++ (tabs ++ ' ' :: more) ++ exchange).takeWhile (· ≠ ' ') = digits ++ tabs := by
    rw [shape, List.takeWhile_append_of_pos before, List.takeWhile_cons_of_neg (by simp), List.append_nil]
  have dropped : (digits ++ (tabs ++ ' ' :: more) ++ exchange).dropWhile (· ≠ ' ')
      = ' ' :: (more ++ exchange) := by
    rw [shape, List.dropWhile_append_of_pos before, List.dropWhile_cons_of_neg (by simp)]
  have target : stripped (more ++ exchange ++ []) = exchange :=
    stripped_between (List.forall_mem_cons.mp spaces.2).2 (List.forall_mem_nil _) named.isSolid
  have some : digits ++ tabs ≠ [] := List.append_ne_nil_of_left_ne_nil writes.1 _
  rw [List.append_nil] at target
  rw [contentOf, if_pos rfl]
  simp only [taken, dropped, List.tail_cons, target, if_neg some, parseInt_written writes spaces.1]
  rfl

theorem contentOf_written (written : what.Written fields) (named : what.Named)
    (spaced : Spaced IsBlank fields rdata) (parted : what.type = "MX".toList → ' ' ∈ rdata) :
    contentOf ⟨name, ttl, what.type, rdata⟩ host spfInclude = some (what.content host spfInclude) := by
  cases written with
  | @mx digits exchange preference writes =>
    obtain ⟨gap, later, blank, last, rfl⟩ := spaced_cons (List.cons_ne_nil _ _) spaced
    obtain rfl := spaced_singleton last
    exact contentOf_mx writes named blank (parted rfl)
  | @txt strings text written whole =>
    have read : shlexSplit rdata = some strings := shlexSplit_quoted (fun gap => IsBlank.shell) spaced
    have unquoted : unquote rdata = text := by
      rw [unquote, read]
      exact whole
    show some ((txtContent host (unquote rdata) spfInclude).map _) = _
    rw [unquoted]
    rfl
  | cname =>
    obtain rfl := spaced_singleton spaced
    rfl
  | @srv first second third target priority weight port writes writes' writes'' =>
    have word {field : List Char} (named : IsName field) : wordsOf field = [field] :=
      wordsOf_word named.1 fun c member => (named.2 c member).1
    have words : wordsOf rdata = [first, second, third, target] := by
      rw [wordsOf_spaced (fun gap => IsBlank.isGap) spaced]
      simp only [List.flatMap_cons, List.flatMap_nil, word writes.isName, word writes'.isName,
        word writes''.isName, word named]
      rfl
    have number {field : List Char} {n : ℕ} (writes : WritesNumber field n) :
        parseInt field = some (n : ℤ) := by
      have read := parseInt_written writes (List.forall_mem_nil _)
      rwa [List.append_nil] at read
    have mx : "SRV".toList ≠ "MX".toList := by decide
    have txt : "SRV".toList ≠ "TXT".toList := by decide
    have cname : "SRV".toList ≠ "CNAME".toList := by decide
    show contentOf ⟨name, ttl, "SRV".toList, rdata⟩ host spfInclude = _
    rw [contentOf, if_neg mx, if_neg txt, if_neg cname, if_pos rfl]
    simp only [words, number writes, number writes', number writes'']
    rfl

end Content

theorem rowOf_isSome (type host : List Char) (ttl : Option ℕ) (defaultTtl : ℕ) (content : Content) :
    (rowOf type host ttl defaultTtl content).isSome = true := by
  obtain ⟨group, found⟩ := Option.isSome_iff_exists.mp (groupOf_isSome content.category)
  rw [rowOf, found]
  rfl

/-- **A line of a record's fields** is read as the record, and its row is the record's. -/
theorem toRow_line {record : Record} {spelling : Spelling record} (lower : List Char → List Char)
    (domain spfInclude : List Char) (defaultTtl : ℕ) (isLine : spelling.IsLine line) :
    line.head? ≠ some '$' ∧ ∃ found, matchRecordLine lower line = some found ∧
      toRow domain spfInclude defaultTtl found = some (record.row lower domain spfInclude defaultTtl) := by
  obtain ⟨head, gap, data, headed, apart, spaced, parted, rfl⟩ := isLine
  constructor
  · obtain ⟨between, later, -, -, rfl⟩ := spaced_cons (by simp) headed
    simp only [List.append_assoc]
    rw [List.head?_append_of_ne_nil _ record.named.1]
    exact record.undirected
  · refine ⟨_, matchRecordLine_line lower headed apart spaced, ?_⟩
    rw [toRow, Record.row]
    cases place : relativeHost (lower (withoutDots record.owner)) domain with
    | none => rfl
    | some host =>
      simp only [Option.bind_some, Option.bind_eq_bind]
      rw [contentOf_written spelling.written record.targeted spaced parted]
      cases record.data.content host spfInclude with
      | none => rfl
      | some content =>
        obtain ⟨row, made⟩ := Option.isSome_iff_exists.mp
          (rowOf_isSome record.data.type host record.ttl defaultTtl content)
        simp only [Option.bind_some, made, Option.map_some]

theorem Spelling.isLine_intercalate {record : Record} (spelling : Spelling record) :
    spelling.IsLine ([' '].intercalate spelling.fields) := by
  have some : spelling.data ≠ [] := spelling.written.ne_nil
  have first : spelling.head ≠ [] := List.cons_ne_nil _ _
  refine ⟨[' '].intercalate spelling.head, [' '], [' '].intercalate spelling.data,
    spaced_intercalate first isBlank_space, isBlank_space, spaced_intercalate some isBlank_space,
    spelling.written.space_mem, intercalate_append first some⟩

end SuiteCloud.Mail.Cluster.Zone
