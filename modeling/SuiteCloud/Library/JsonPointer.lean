/-
**JSON pointers.**

A path is its reference tokens with a `/` between them. In a token a `/` is written `~1` and a `~` is
written `~0`: a reader splits the path and turns `~1` into `/`, then `~0` into `~`.

* `replacePair` — every occurrence of two characters replaced by one.
* `unescape`, `tokens` — the reader.
* `IsPlain`, `unescape_eq_self` — **a token stands for itself** when it has no escape sequence, and only
  then.
* `tokens_append` — the tokens of a path and a path.
-/

import Mathlib.Data.List.Infix

namespace SuiteCloud.Library

variable {α : Type*} [DecidableEq α]

/-- Every occurrence of `a` followed by `b` replaced by `c`, from left to right. -/
def replacePair (a b c : α) : List α → List α
  | first :: second :: rest =>
      if first = a ∧ second = b then c :: replacePair a b c rest
      else first :: replacePair a b c (second :: rest)
  | chars => chars

variable {a b c : α} {chars : List α}

theorem length_replacePair : (replacePair a b c chars).length ≤ chars.length := by
  induction chars using replacePair.induct a b with
  | case1 first second rest pair ih =>
    rw [replacePair, if_pos pair, List.length_cons, List.length_cons, List.length_cons]
    omega
  | case2 first second rest other ih =>
    rw [replacePair, if_neg other, List.length_cons, List.length_cons (a := first)]
    exact Nat.succ_le_succ ih
  | case3 chars short =>
    rw [replacePair]
    exact short

theorem length_replacePair_lt (there : [a, b] <:+: chars) :
    (replacePair a b c chars).length < chars.length := by
  induction chars using replacePair.induct a b with
  | case1 first second rest pair ih =>
    have most : (replacePair a b c rest).length ≤ rest.length := length_replacePair
    rw [replacePair, if_pos pair, List.length_cons, List.length_cons, List.length_cons]
    omega
  | case2 first second rest other ih =>
    rw [replacePair, if_neg other, List.length_cons, List.length_cons (a := first)]
    rcases List.infix_cons_iff.mp there with ⟨tail, starts⟩ | later
    · obtain ⟨same, next⟩ := List.cons.inj starts
      exact absurd ⟨same.symm, (List.cons.inj next).1.symm⟩ other
    · exact Nat.succ_lt_succ (ih later)
  | case3 chars short =>
    have least := there.length_le
    match chars, short with
    | [], _ => exact absurd least (Nat.not_le_of_lt Nat.two_pos)
    | [_], _ => exact absurd least (Nat.not_le_of_lt Nat.one_lt_two)
    | first :: second :: rest, short => exact (short first second rest rfl).elim

theorem replacePair_eq_self (absent : ¬ [a, b] <:+: chars) : replacePair a b c chars = chars := by
  induction chars using replacePair.induct a b with
  | case1 first second rest pair ih =>
    obtain ⟨rfl, rfl⟩ := pair
    exact absurd (List.infix_cons_iff.mpr (Or.inl ⟨rest, rfl⟩)) absent
  | case2 first second rest other ih =>
    rw [replacePair, if_neg other, ih fun later => absent (List.infix_cons_iff.mpr (Or.inr later))]
  | case3 chars short => rw [replacePair]; exact short

/-- **What a token stands for**: `~1` is `/`, and then `~0` is `~`. -/
def unescape (token : String) : String :=
  String.ofList (replacePair '~' '0' '~' (replacePair '~' '1' '/' token.toList))

/-- **The tokens of a path.** -/
def tokens (path : String) : List String :=
  (path.toList.splitOn '/').map fun token => unescape (String.ofList token)

/-- The text has no escape sequence. -/
def IsPlain (text : String) : Prop := ¬ ['~', '0'] <:+: text.toList ∧ ¬ ['~', '1'] <:+: text.toList

/-- **A token stands for itself** when it has no escape sequence, and only then. -/
theorem unescape_eq_self {token : String} : unescape token = token ↔ IsPlain token := by
  constructor
  · intro same
    have length := congrArg (fun text => text.toList.length) same
    simp only [unescape, String.toList_ofList] at length
    constructor
    · intro there
      by_cases slash : ['~', '1'] <:+: token.toList
      · have first := length_replacePair_lt (c := '/') slash
        have second : (replacePair '~' '0' '~' (replacePair '~' '1' '/' token.toList)).length ≤ _ :=
          length_replacePair
        omega
      · rw [replacePair_eq_self slash] at length
        have second := length_replacePair_lt (c := '~') there
        omega
    · intro slash
      have first := length_replacePair_lt (c := '/') slash
      have second : (replacePair '~' '0' '~' (replacePair '~' '1' '/' token.toList)).length ≤ _ :=
        length_replacePair
      omega
  · rintro ⟨tilde, slash⟩
    rw [unescape, replacePair_eq_self slash, replacePair_eq_self tilde, String.ofList_toList]

/-- **The tokens of a path and a path**, with a `/` between them. -/
theorem tokens_append (left right : String) :
    tokens (left ++ "/" ++ right) = tokens left ++ tokens right := by
  have chars : (left ++ "/" ++ right).toList = left.toList ++ '/' :: right.toList := by
    rw [String.toList_append, String.toList_append, List.append_assoc]
    rfl
  rw [tokens, chars, List.splitOn_append_cons_self, List.map_append]
  rfl

/-- The tokens of a path of one token. -/
theorem tokens_of_not_mem {token : String} (single : '/' ∉ token.toList) :
    tokens token = [unescape token] := by
  rw [tokens, List.splitOn_eq_singleton single, List.map_singleton, String.ofList_toList]

end SuiteCloud.Library
