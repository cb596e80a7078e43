/-
**A generated label is usable.**

The labels `label_from` and `generate_label` make of an organization's name: words of lower-case ASCII letters
and digits with single dashes between them, as many as fit. A dash never comes of cutting, so a label's words
are those it was made of; `vm` is one of them only where it is the only one.

* `Joins` — a label and its words; `joinWithin_joins` — what `join_within` gives.
* `nameWords` — the words of a name, once the suffixes and `vm` are left out.
* `Usable` — a label that may be given to a tenant.
* `generated_label_usable` — **each of them is**, and a generated one is free besides.
-/

import SuiteCloud.Hosting.Labels
import SuiteCloud.Library.Words
import SuiteCloud.Mail.Tenancy.Addresses

namespace SuiteCloud.Hosting.Labels

open SuiteCloud.Library
open SuiteCloud.Mail.Tenancy (isLabelChar isDomainLabel isLabelChar_facts)

/-! ## Words -/

/-- A character of `[a-z0-9]`. -/
def isWordChar (c : Char) : Bool := c.isLower || c.isDigit

/-- A word of a label. -/
def IsWord (word : List Char) : Prop := word ≠ [] ∧ ∀ c ∈ word, isWordChar c = true

theorem IsWord.dash_not_mem {word : List Char} (isWord : IsWord word) : '-' ∉ word := fun dash =>
  absurd (isWord.2 '-' dash) (by decide)

theorem isWord_of_all {word : List Char} (some : word ≠ []) (all : word.all isWordChar = true) : IsWord word :=
  ⟨some, List.all_eq_true.mp all⟩

/-- A word that is cut is a word. -/
theorem IsWord.take {word : List Char} (isWord : IsWord word) {length : ℕ} (some : 0 < length) :
    IsWord (word.take length) := by
  refine ⟨fun none => ?_, fun c among => isWord.2 c (List.mem_of_mem_take among)⟩
  obtain zero | empty := List.take_eq_nil_iff.mp none
  · omega
  · exact isWord.1 empty

/-- **A label and its words.** -/
def Joins (words : List (List Char)) (label : String) : Prop :=
  words ≠ [] ∧ (∀ word ∈ words, IsWord word) ∧ label.toList = ['-'].intercalate words

namespace Joins

variable {words : List (List Char)} {label : String}

theorem splitOn (joins : Joins words label) : label.toList.splitOn '-' = words := by
  obtain ⟨some, all, chars⟩ := joins
  rw [chars]
  exact List.splitOn_intercalate '-' (fun word among => (all word among).dash_not_mem) some

theorem isLabelChar (joins : Joins words label) {c : Char} (member : c ∈ label.toList) :
    Mail.Tenancy.isLabelChar c = true := by
  have parts := joins.splitOn
  obtain ⟨some, all, chars⟩ := joins
  rw [chars] at member
  clear parts chars
  induction words with
  | nil => exact absurd rfl some
  | cons word words ih =>
    have ofWord : ∀ c ∈ word, Mail.Tenancy.isLabelChar c = true := fun c among => by
      rw [Mail.Tenancy.isLabelChar, Bool.or_eq_true]
      exact .inl ((all word List.mem_cons_self).2 c among)
    cases words with
    | nil =>
      rw [List.intercalate_singleton] at member
      exact ofWord c member
    | cons next words =>
      rw [List.intercalate_cons_cons, List.mem_append, List.mem_append] at member
      obtain (inWord | dash) | inRest := member
      · exact ofWord c inWord
      · rw [List.mem_singleton.mp dash]
        rfl
      · exact ih inRest (List.cons_ne_nil _ _) fun word among => all word (List.mem_cons_of_mem _ among)

theorem nil_not_mem (joins : Joins words label) : [] ∉ label.toList.splitOn '-' := by
  rw [joins.splitOn]
  exact fun empty => (joins.2.1 [] empty).1 rfl

theorem head_ne_dash (joins : Joins words label) : label.toList.head? ≠ some '-' := by
  intro starts
  obtain ⟨rest, chars⟩ := List.head?_eq_some_iff.mp starts
  refine joins.nil_not_mem ?_
  rw [chars, ← List.nil_append ('-' :: rest), List.splitOn_append_cons_self, List.splitOn_nil]
  exact List.mem_append_left _ List.mem_cons_self

theorem getLast_ne_dash (joins : Joins words label) : label.toList.getLast? ≠ some '-' := by
  intro ends
  refine joins.nil_not_mem ?_
  rw [← List.dropLast_append_getLast? _ ends, List.splitOn_append_cons_self]
  exact List.mem_append_right _ List.mem_cons_self

theorem ne_nil (joins : Joins words label) : label.toList ≠ [] := by
  intro empty
  refine joins.nil_not_mem ?_
  rw [empty, List.splitOn_nil]
  exact List.mem_cons_self

theorem isDomainLabel (joins : Joins words label) (short : label.length ≤ 63) :
    Mail.Tenancy.isDomainLabel label.toList = true := by
  have line : label.toList.getLast? ≠ some '\n' := fun ends =>
    absurd (joins.isLabelChar (List.mem_of_getLast? ends)) (by decide)
  have chars : label.toList.all Mail.Tenancy.isLabelChar = true :=
    List.all_eq_true.mpr fun c member => joins.isLabelChar member
  have some : 1 ≤ label.toList.length := List.length_pos_iff.mpr joins.ne_nil
  have length : label.toList.length ≤ 63 := short
  simp only [Mail.Tenancy.isDomainLabel, if_neg line, chars, some, length, joins.head_ne_dash,
    joins.getLast_ne_dash, and_self, ne_eq, not_false_eq_true, decide_true, Bool.and_self]

theorem vm_mem (joins : Joins words label) (vm : "-vm-".toList <:+: label.toList) : ['v', 'm'] ∈ words := by
  obtain ⟨before, after, chars⟩ := vm
  have parts : before ++ "-vm-".toList ++ after = before ++ '-' :: (['v', 'm'] ++ '-' :: after) := by simp
  rw [← joins.splitOn, ← chars, parts, List.splitOn_append_cons_self,
    List.splitOn_append_cons_self_of_not_mem (by decide)]
  exact List.mem_append_right _ List.mem_cons_self

/-- A word is added. -/
theorem append (joins : Joins words label) {word : String} (isWord : IsWord word.toList) :
    Joins (words ++ [word.toList]) (label ++ ("-" ++ word)) := by
  obtain ⟨some, all, chars⟩ := joins
  refine ⟨by simp, fun other among => ?_, ?_⟩
  · obtain among | among := List.mem_append.mp among
    · exact all other among
    · exact List.mem_singleton.mp among ▸ isWord
  · rw [intercalate_append some (List.cons_ne_nil _ _), List.intercalate_singleton, ← chars,
      String.toList_append, String.toList_append, ← List.append_assoc]
    rfl

end Joins

/-! ## Joining -/

theorem joinRest_joins {length : ℕ} {words : List (List Char)} {label : String} {rest : List String}
    (joins : Joins words label) (all : ∀ word ∈ rest, IsWord word.toList) (short : label.length ≤ length) :
    ∃ taken, taken <+: rest ∧ Joins (words ++ taken.map String.toList) (joinRest length label rest)
      ∧ (joinRest length label rest).length ≤ length := by
  induction rest generalizing words label with
  | nil => exact ⟨[], List.nil_prefix, by simpa [joinRest] using joins, short⟩
  | cons word rest ih =>
    rw [joinRest]
    split_ifs with long
    · exact ⟨[], List.nil_prefix, by simpa using joins, short⟩
    · have whole : label ++ "-" ++ word = label ++ ("-" ++ word) := String.append_assoc
      have fits : (label ++ "-" ++ word).length ≤ length := by
        rw [String.length_append, String.length_append]
        exact Nat.not_lt.mp long
      have more := joins.append (all word List.mem_cons_self)
      rw [← whole] at more
      obtain ⟨taken, first, joined, within⟩ := ih more
        (fun other among => all other (List.mem_cons_of_mem _ among)) fits
      exact ⟨word :: taken, List.cons_prefix_cons.mpr ⟨rfl, first⟩, by simpa using joined, within⟩

/-- **What `join_within` gives**: the first word, cut, and then whole words. -/
theorem joinWithin_joins {length : ℕ} {word : String} {rest : List String} (some : 0 < length)
    (all : ∀ other ∈ word :: rest, IsWord other.toList) :
    ∃ taken, taken <+: rest
      ∧ Joins (word.toList.take length :: taken.map String.toList) (joinWithin length (word :: rest))
      ∧ (joinWithin length (word :: rest)).length ≤ length := by
  have first : Joins [word.toList.take length] (String.ofList (word.toList.take length)) := by
    refine ⟨List.cons_ne_nil _ _, fun other among => ?_, ?_⟩
    · rw [List.mem_singleton.mp among]
      exact (all word List.mem_cons_self).take some
    · rw [String.toList_ofList, List.intercalate_singleton]
  refine joinRest_joins first (fun other among => all other (List.mem_cons_of_mem _ among)) ?_
  rw [String.length_ofList]
  exact List.length_take_le _ _

/-! ## The words of a name -/

theorem isWord_of_mem_findWords {text word : String} (member : word ∈ findWords text) :
    IsWord word.toList := by
  obtain ⟨chars, found, rfl⟩ := List.mem_map.mp member
  obtain ⟨part, some⟩ := List.mem_filter.mp found
  rw [String.toList_ofList]
  refine ⟨of_decide_eq_true some, fun c among => ?_⟩
  exact (Bool.not_eq_false' _).mp (not_of_mem_splitOnP part c among)

theorem dropSuffixes_suffix (words : List String) : dropSuffixes words <:+ words := by
  fun_induction dropSuffixes words with
  | case1 => exact List.suffix_rfl
  | case2 => exact List.suffix_rfl
  | case3 word rest _ _ ih => exact ih.trans (List.suffix_cons _ _)
  | case4 => exact List.suffix_rfl

theorem dropSuffixes_ne_nil {words : List String} (some : words ≠ []) : dropSuffixes words ≠ [] := by
  fun_induction dropSuffixes words with
  | case1 => exact some
  | case2 => exact some
  | case3 word rest more _ ih => exact ih fun none => more none
  | case4 => exact some

variable (fold : String → String)

/-- The words of a name, once the suffixes and `vm` are left out. -/
def nameWords (organization : String) : List String :=
  let found := findWords (fold organization)
  let words := (dropSuffixes (if found = [] then ["workspace"] else found).reverse).reverse
  if 1 < words.length then (if words.filter (· ≠ "vm") = [] then ["vm"] else words.filter (· ≠ "vm"))
  else words

theorem labelFrom_eq (organization : String) : labelFrom fold organization =
    if isReserved (joinWithin generatedLength (nameWords fold organization)) then
      joinWithin generatedLength ("team" :: nameWords fold organization)
    else joinWithin generatedLength (nameWords fold organization) := rfl

theorem nameWords_spec (organization : String) :
    nameWords fold organization ≠ [] ∧ (∀ word ∈ nameWords fold organization, IsWord word.toList)
      ∧ ("vm" ∈ nameWords fold organization → nameWords fold organization = ["vm"]) := by
  unfold nameWords
  generalize found_eq : findWords (fold organization) = found
  simp only
  have foundWords : ∀ word ∈ (if found = [] then ["workspace"] else found), IsWord word.toList := by
    split_ifs with none
    · intro word among
      rw [List.mem_singleton.mp among]
      exact isWord_of_all (by decide) rfl
    · exact fun word among => isWord_of_mem_findWords (found_eq ▸ among)
  have some : (if found = [] then ["workspace"] else found) ≠ [] := by
    split_ifs with none
    · exact List.cons_ne_nil _ _
    · exact none
  generalize (if found = [] then ["workspace"] else found) = given at foundWords some
  have kept : ∀ word ∈ (dropSuffixes given.reverse).reverse, IsWord word.toList := fun word among =>
    foundWords word (List.mem_reverse.mp ((dropSuffixes_suffix _).subset (List.mem_reverse.mp among)))
  have keptSome : (dropSuffixes given.reverse).reverse ≠ [] := by
    rw [Ne, List.reverse_eq_nil_iff]
    exact dropSuffixes_ne_nil fun none => some (List.reverse_eq_nil_iff.mp none)
  generalize (dropSuffixes given.reverse).reverse = words at kept keptSome
  split_ifs with many none
  · refine ⟨List.cons_ne_nil _ _, fun word among => ?_, fun _ => rfl⟩
    rw [List.mem_singleton.mp among]
    exact isWord_of_all (by decide) rfl
  · refine ⟨none, fun word among => kept word (List.mem_of_mem_filter among), fun vm => ?_⟩
    exact absurd (List.of_mem_filter vm) (by decide)
  · refine ⟨keptSome, kept, fun vm => ?_⟩
    obtain ⟨word, rfl⟩ : ∃ word, words = [word] := by
      refine List.length_eq_one_iff.mp ?_
      have := List.length_pos_iff.mpr keptSome
      omega
    rw [List.mem_singleton.mp vm]

/-! ## The labels -/

/-- **A label that may be given to a tenant.** -/
structure Usable (label : String) : Prop where
  accepted : isDomainLabel label.toList = true
  short : label.length ≤ generatedLength
  free : isReserved label = false
  noServer : ¬ "-vm-".toList <:+: label.toList
  noProxy : ¬ "proxy-".toList <+: label.toList
  noSite : ¬ "site-".toList <+: label.toList

/-- A label of words is usable unless it is reserved. -/
theorem Joins.usable {words : List (List Char)} {label : String} (joins : Joins words label)
    (short : label.length ≤ generatedLength) (free : isReserved label = false) : Usable label := by
  have pattern : matchesReservedPattern label = false := (Bool.or_eq_false_iff.mp free).2
  simp only [matchesReservedPattern, Bool.or_eq_false_iff, decide_eq_false_iff_not] at pattern
  obtain ⟨⟨⟨-, proxy⟩, site⟩, server⟩ := pattern
  have accepted := joins.isDomainLabel (le_trans short (by decide))
  refine ⟨accepted, short, free, server, fun starts => ?_, fun starts => ?_⟩
  · rw [List.isPrefixOf_iff_prefix.mpr starts] at proxy
    cases proxy
  · rw [List.isPrefixOf_iff_prefix.mpr starts] at site
    cases site

theorem isReserved_of_team {label : String} {rest : List Char} (team : label.toList = 't' :: rest)
    (server : ¬ "-vm-".toList <:+: label.toList) : isReserved label = false := by
  have named : label ∉ reserved := by
    intro among
    have first : ∀ name ∈ reserved, name.toList.head? ≠ some 't' := by decide
    exact first label among (by rw [team]; rfl)
  have pattern : matchesReservedPattern label = false := by
    rw [team] at server
    simp only [matchesReservedPattern, team, decide_eq_false server]
    rfl
  rw [isReserved, pattern, decide_eq_false named]
  rfl

theorem labelFrom_joins (organization : String) : ∃ words, Joins words (labelFrom fold organization)
    ∧ (labelFrom fold organization).length ≤ generatedLength
    ∧ isReserved (labelFrom fold organization) = false := by
  obtain ⟨some, all, vm⟩ := nameWords_spec fold organization
  rw [labelFrom_eq]
  generalize nameWords fold organization = words at some all vm
  split_ifs with reserved
  · have teamWords : ∀ word ∈ "team" :: words, IsWord word.toList := by
      refine List.forall_mem_cons.mpr ⟨isWord_of_all (by decide) rfl, all⟩
    have room : 0 < generatedLength := by decide
    obtain ⟨taken, first, joins, short⟩ := joinWithin_joins room teamWords
    refine ⟨_, joins, short, ?_⟩
    obtain ⟨rest, team⟩ : ∃ rest, (joinWithin generatedLength ("team" :: words)).toList = 't' :: rest := by
      rw [joins.2.2]
      cases taken.map String.toList with
      | nil => exact ⟨_, rfl⟩
      | cons next later => exact ⟨_, rfl⟩
    refine isReserved_of_team team fun server => ?_
    -- The words were not `vm` alone: that is not reserved.
    have inside := joins.vm_mem server
    rw [List.mem_cons] at inside
    obtain head | tail := inside
    · exact absurd head (by decide)
    · obtain ⟨word, among, chars⟩ := List.mem_map.mp tail
      obtain rfl : word = "vm" := String.toList_injective chars
      rw [vm (first.subset among)] at reserved
      exact absurd reserved (by decide)
  · obtain ⟨word, rest, rfl⟩ := List.exists_cons_of_ne_nil some
    have room : 0 < generatedLength := by decide
    obtain ⟨taken, -, joins, short⟩ := joinWithin_joins room all
    exact ⟨_, joins, short, by simpa using reserved⟩

theorem isWord_decimal (n : ℕ) : IsWord (toString n).toList := by
  refine ⟨fun none => ?_, fun c member => ?_⟩
  · have digits : Nat.toDigits 10 n = [] := by rw [← Nat.toList_repr]; exact none
    exact absurd digits (by simp)
  · rw [isWordChar, decimal_digits member, Bool.or_true]

theorem labelsFor_joins {organization label : String} (tried : label ∈ labelsFor fold organization) :
    ∃ words, Joins words label ∧ label.length ≤ generatedLength := by
  obtain ⟨words, joins, short, -⟩ := labelFrom_joins fold organization
  obtain ⟨i, inRange, made⟩ := List.mem_map.mp tried
  have bound : i < 99 := List.mem_range.mp inRange
  simp only at made
  split_ifs at made with first
  · exact ⟨words, made ▸ joins, made ▸ short⟩
  · rw [joins.splitOn] at made
    obtain ⟨some, all, -⟩ := joins
    have digits : ∀ i < 99, ("-" ++ toString (i + 1)).length ≤ 3 := by decide
    have suffixShort := digits i bound
    obtain ⟨word, rest, rfl⟩ := List.exists_cons_of_ne_nil some
    have allTexts : ∀ other ∈ String.ofList word :: rest.map String.ofList, IsWord other.toList := by
      intro other among
      rw [← List.map_cons] at among
      obtain ⟨chars, inside, rfl⟩ := List.mem_map.mp among
      rw [String.toList_ofList]
      exact all chars inside
    have room : 0 < generatedLength - ("-" ++ toString (i + 1)).length := by
      rw [generatedLength]
      omega
    obtain ⟨taken, -, joined, within⟩ := joinWithin_joins room allTexts
    rw [List.map_cons] at made
    refine ⟨_, made ▸ joined.append (isWord_decimal (i + 1)), ?_⟩
    rw [← made, String.length_append]
    have whole : ("-" ++ toString (i + 1)).length ≤ generatedLength := le_trans suffixShort (by decide)
    omega

/-- **A generated label is usable.** What `label_from` gives is; so is what `generate_label` gives, where it
does not raise, and it is free. -/
theorem generated_label_usable (organization : String) :
    Usable (labelFrom fold organization) ∧ ∀ config data request label,
      generateLabel fold config data organization request = some label →
        Usable label ∧ isTaken config data label request none openStatuses = false := by
  constructor
  · obtain ⟨words, joins, short, free⟩ := labelFrom_joins fold organization
    exact joins.usable short free
  · intro config data request label generated
    have passes := List.find?_some generated
    rw [Bool.and_eq_true, Bool.not_eq_true', Bool.not_eq_true'] at passes
    obtain ⟨words, joins, short⟩ := labelsFor_joins fold (List.mem_of_find?_eq_some generated)
    exact ⟨joins.usable short passes.1, passes.2⟩

theorem generated_label_usable_acme :
    generateLabel String.toLower oneZone (twoRequests none) "Acme Inc." "1" = some "acme"
      ∧ Usable "acme" ∧ isTaken oneZone (twoRequests none) "acme" "1" none openStatuses = false := by
  have generated : generateLabel String.toLower oneZone (twoRequests none) "Acme Inc." "1" = some "acme" := by
    decide +kernel
  exact ⟨generated, (generated_label_usable String.toLower "Acme Inc.").2 _ _ _ _ generated⟩

end SuiteCloud.Hosting.Labels
