/-
**Texts joined by a separator.**

* `split_first` and `split_last` — a text is determined by its parts around a separator that one
  side does not contain.
* `partition` — Python's `str.partition`; `partition_append`.
* `strip`, `stripOf` and `rstripOf` — Python's `str.strip` and `str.rstrip`; `strip_eq_self`.
* `asciiLower` — Python's `str.lower` on ASCII texts.
* `decimal_injective` and `decimal_digits` — a number is determined by its decimal text, which holds
  digits only.
-/

import Mathlib.Tactic.Common
import Mathlib.Data.List.Basic

namespace SuiteCloud.Library

variable {α : Type*} {separator : α}

/-- **The first separator splits a text** whose left part has none. -/
theorem split_first {left left' right right' : List α} (free : separator ∉ left)
    (free' : separator ∉ left')
    (same : left ++ separator :: right = left' ++ separator :: right') :
    left = left' ∧ right = right' := by
  induction left generalizing left' with
  | nil =>
    cases left' with
    | nil => exact ⟨rfl, (List.cons.inj same).2⟩
    | cons first rest =>
      obtain ⟨rfl, -⟩ := List.cons.inj same
      exact absurd List.mem_cons_self free'
  | cons first rest ih =>
    cases left' with
    | nil =>
      obtain ⟨rfl, -⟩ := List.cons.inj same
      exact absurd List.mem_cons_self free
    | cons first' rest' =>
      obtain ⟨rfl, tails⟩ := List.cons.inj same
      obtain ⟨rfl, rights⟩ := ih (fun member => free (List.mem_cons_of_mem _ member))
        (fun member => free' (List.mem_cons_of_mem _ member)) tails
      exact ⟨rfl, rights⟩

/-- **The last separator splits a text** whose right part has none. -/
theorem split_last {left left' right right' : List α} (free : separator ∉ right)
    (free' : separator ∉ right')
    (same : left ++ separator :: right = left' ++ separator :: right') :
    left = left' ∧ right = right' := by
  have reversed := congrArg List.reverse same
  simp only [List.reverse_append, List.reverse_cons, List.append_assoc, List.singleton_append]
    at reversed
  obtain ⟨rights, lefts⟩ := split_first (mt List.mem_reverse.mp free)
    (mt List.mem_reverse.mp free') reversed
  exact ⟨List.reverse_injective lefts, List.reverse_injective rights⟩

/-- `str.partition`: the text before and after the first separator, where there is one. -/
def partition (separator : Char) (text : String) : Option (String × String) :=
  match text.toList.dropWhile (· ≠ separator) with
  | [] => none
  | _ :: after => some (String.ofList (text.toList.takeWhile (· ≠ separator)), String.ofList after)

/-- **A text is parted at its first separator.** -/
theorem partition_append {separator : Char} {left : String} (free : separator ∉ left.toList)
    (right : String) :
    partition separator (left ++ String.singleton separator ++ right) = some (left, right) := by
  have before : ∀ c ∈ left.toList, decide (c ≠ separator) = true := by
    intro c member
    rw [decide_eq_true_iff]
    rintro rfl
    exact free member
  have chars : (left ++ String.singleton separator ++ right).toList =
      left.toList ++ separator :: right.toList := by
    rw [String.toList_append, String.toList_append, String.toList_singleton, List.append_assoc]
    rfl
  rw [partition, chars, List.dropWhile_append_of_pos before,
    List.dropWhile_cons_of_neg (by simp), List.takeWhile_append_of_pos before,
    List.takeWhile_cons_of_neg (by simp), List.append_nil]
  simp only [String.ofList_toList]

/-- The characters Python's `str.isspace` accepts. -/
def isSpace (c : Char) : Bool :=
  decide (c.toNat ∈ [0x85, 0xA0, 0x1680, 0x2028, 0x2029, 0x202F, 0x205F, 0x3000]) ||
    decide (0x09 ≤ c.toNat ∧ c.toNat ≤ 0x0D) || decide (0x1C ≤ c.toNat ∧ c.toNat ≤ 0x20) ||
    decide (0x2000 ≤ c.toNat ∧ c.toNat ≤ 0x200A)

/-- A check of the characters of a text, made by running it. -/
theorem forall_mem_of_all {p : Char → Prop} [DecidablePred p] {text : List Char}
    (passes : (text.all fun c => decide (p c)) = true) : ∀ c ∈ text, p c := by
  intro c member
  exact of_decide_eq_true (List.all_eq_true.mp passes c member)

/-- `str.rstrip`: the text without such characters at its end. -/
def rstripOf (dropped : Char → Bool) (text : String) : String :=
  String.ofList (text.toList.reverse.dropWhile dropped).reverse

/-- `str.strip` of given characters. -/
def stripOf (dropped : Char → Bool) (text : String) : String :=
  rstripOf dropped (String.ofList (text.toList.dropWhile dropped))

/-- `str.strip`: the text without the white space at its ends. -/
def strip (text : String) : String := stripOf isSpace text

example : strip " v=spf1 -all\n" = "v=spf1 -all" := by decide

theorem mem_of_mem_rstripOf {dropped : Char → Bool} {text : String} {c : Char}
    (member : c ∈ (rstripOf dropped text).toList) : c ∈ text.toList := by
  rw [rstripOf, String.toList_ofList, List.mem_reverse] at member
  exact List.mem_reverse.mp (List.dropWhile_subset dropped member)

theorem mem_of_mem_strip {text : String} {c : Char} (member : c ∈ (strip text).toList) :
    c ∈ text.toList := by
  have member := mem_of_mem_rstripOf member
  rw [String.toList_ofList] at member
  exact List.dropWhile_subset isSpace member

/-- A text that does not end in a dropped character is its own `rstrip`. -/
theorem rstripOf_eq_self {dropped : Char → Bool} {text : String}
    (last : ∀ c ∈ text.toList.getLast?, dropped c = false) : rstripOf dropped text = text := by
  have kept : text.toList.reverse.dropWhile dropped = text.toList.reverse := by
    cases chars : text.toList.reverse with
    | nil => rfl
    | cons c rest =>
      refine List.dropWhile_cons_of_neg ?_
      have ends : text.toList.getLast? = some c := by
        rw [← List.head?_reverse, chars]
        rfl
      simp [last c ends]
  rw [rstripOf, kept, List.reverse_reverse, String.ofList_toList]

/-- A text with no white space at either end is its own `strip`. -/
theorem strip_eq_self {text : String} (first : ∀ c ∈ text.toList.head?, isSpace c = false)
    (last : ∀ c ∈ text.toList.getLast?, isSpace c = false) : strip text = text := by
  have left : text.toList.dropWhile isSpace = text.toList := by
    cases chars : text.toList with
    | nil => rfl
    | cons c rest => exact List.dropWhile_cons_of_neg (by simp [first c (by rw [chars]; rfl)])
  rw [strip, stripOf, left, String.ofList_toList]
  exact rstripOf_eq_self last

/-- A stripped text does not start with white space. -/
theorem strip_head {text : String} {c : Char} (first : c ∈ (strip text).toList.head?) :
    isSpace c = false := by
  rw [strip, stripOf, rstripOf, String.toList_ofList, String.toList_ofList] at first
  obtain ⟨rest, whole⟩ := List.reverse_prefix.mpr
    (List.dropWhile_suffix (l := (text.toList.dropWhile isSpace).reverse) isSpace)
  rw [List.reverse_reverse] at whole
  have start : (text.toList.dropWhile isSpace).head? = some c := by
    rw [← whole, List.head?_append, first]
    rfl
  have stops := List.head?_dropWhile_not isSpace text.toList
  rw [start] at stops
  exact stops

section Ascii

variable {text : String} {c : Char}

theorem toLower_of_not_upper (upper : c.isUpper = false) : c.toLower = c := by
  exact dif_neg (of_decide_eq_false upper)

theorem toNat_toLower (upper : c.isUpper = true) :
    65 ≤ c.toNat ∧ c.toNat ≤ 90 ∧ c.toLower.toNat = c.toNat + 32 := by
  have inside := of_decide_eq_true upper
  have least : 65 ≤ c.toNat := inside.1
  have most : c.toNat ≤ 90 := inside.2
  refine ⟨least, most, ?_⟩
  have lower : c.toLower.val = c.val + ('a'.val - 'A'.val) := congrArg Char.val (dif_pos inside)
  show c.toLower.val.toNat = _
  rw [lower]
  rw [UInt32.toNat_add]
  show (c.toNat + 32) % 2 ^ 32 = _
  omega

theorem isUpper_toLower : c.toLower.isUpper = false := by
  cases upper : c.isUpper with
  | false => rw [toLower_of_not_upper upper, upper]
  | true =>
    obtain ⟨least, most, sum⟩ := toNat_toLower upper
    have outside : ¬ (65 ≤ c.toLower.toNat ∧ c.toLower.toNat ≤ 90) := by omega
    exact decide_eq_false outside

theorem isSpace_toLower : isSpace c.toLower = isSpace c := by
  cases upper : c.isUpper with
  | false => rw [toLower_of_not_upper upper]
  | true =>
    obtain ⟨least, most, sum⟩ := toNat_toLower upper
    simp only [isSpace, List.mem_cons, List.not_mem_nil, or_false]
    rw [sum]
    have spaces : ∀ n : ℕ, 65 ≤ n → n ≤ 122 →
        (decide (n = 0x85 ∨ n = 0xA0 ∨ n = 0x1680 ∨ n = 0x2028 ∨ n = 0x2029 ∨ n = 0x202F ∨ n = 0x205F ∨
          n = 0x3000) || decide (0x09 ≤ n ∧ n ≤ 0x0D) || decide (0x1C ≤ n ∧ n ≤ 0x20) ||
          decide (0x2000 ≤ n ∧ n ≤ 0x200A)) = false := by
      intro n least most
      simp only [Bool.or_eq_false_iff, decide_eq_false_iff_not]
      omega
    rw [spaces _ (by omega) (by omega), spaces _ (by omega) (by omega)]

theorem toLower_eq_dot (c : Char) : c.toLower = '.' ↔ c = '.' := by
  cases upper : c.isUpper with
  | false => rw [toLower_of_not_upper upper]
  | true =>
    obtain ⟨least, most, sum⟩ := toNat_toLower upper
    constructor
    · intro same
      rw [same] at sum
      have : 46 = c.toNat + 32 := sum
      omega
    · rintro rfl
      exact absurd least (by decide)

/-- `str.lower` of a text in ASCII. -/
def asciiLower (text : String) : String := String.ofList (text.toList.map Char.toLower)

theorem asciiLower_dots (text : String) :
    (asciiLower text).toList.count '.' = text.toList.count '.' := by
  rw [asciiLower, String.toList_ofList, List.count_eq_countP, List.count_eq_countP, List.countP_map]
  refine List.countP_congr fun c _ => ?_
  simp only [Function.comp_apply, beq_iff_eq]
  exact toLower_eq_dot c

theorem asciiLower_eq_self (settled : ∀ c ∈ text.toList, (!c.isUpper) = true) :
    asciiLower text = text := by
  have same : text.toList.map Char.toLower = text.toList := by
    refine (List.map_congr_left fun c member => ?_).trans (List.map_id _)
    exact toLower_of_not_upper (Bool.not_eq_true' _ ▸ settled c member)
  rw [asciiLower, same, String.ofList_toList]

theorem strip_asciiLower (text : String) : strip (asciiLower text) = asciiLower (strip text) := by
  have same : isSpace ∘ Char.toLower = isSpace := funext fun _ => isSpace_toLower
  simp only [strip, stripOf, rstripOf, asciiLower, String.toList_ofList, ← List.map_reverse,
    List.dropWhile_map, same]

end Ascii

theorem decimal_injective : Function.Injective fun n : ℕ => (toString n).toList := by
  intro first second same
  have digits : Nat.toDigits 10 first = Nat.toDigits 10 second := by
    rw [← Nat.toList_repr, ← Nat.toList_repr]
    exact same
  have values := congrArg (fun chars => Nat.ofDigitChars 10 chars 0) digits
  simp only [Nat.ofDigitChars_toDigits (show 1 < 10 by decide) (Nat.le_refl 10)] at values
  exact values

theorem decimal_digits {n : ℕ} {c : Char} (member : c ∈ (toString n).toList) :
    c.isDigit = true := by
  have digit : c ∈ Nat.toDigits 10 n := by
    rw [← Nat.toList_repr]
    exact member
  exact Nat.isDigit_of_mem_toDigits (by decide) (Nat.le_refl 10) digit

end SuiteCloud.Library
