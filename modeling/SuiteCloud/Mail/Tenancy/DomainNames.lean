/-
**The domain check and domain names.**

`validate_domain_name` matches each label of an encoded text against `DOMAIN_LABEL`, whose `$` also stands
before a line break that ends the label. The codec leaves line breaks as they are.

* `IsLabel`, `IsDomainName` — what a domain name is.
* `isDomainLabel_iff` — **what `DOMAIN_LABEL` accepts**: a label, or one with a line break after it.
* `ChecksExactly` — the check of a text accepts it where its form is a domain name, and only there.
* `checksExactly_iff` — **that holds of every text but those whose form has line breaks after its labels**.
-/

import SuiteCloud.Library.Words
import SuiteCloud.Mail.Tenancy.Addresses

namespace SuiteCloud.Mail.Tenancy

open SuiteCloud.Library

/-! ### Domain names -/

/-- A label: letters in lower case, digits and hyphens, with no hyphen at either end. -/
structure IsLabel (label : List Char) : Prop where
  inhabited : 1 ≤ label.length
  short : label.length ≤ 63
  chars : ∀ c ∈ label, isLabelChar c = true
  head : label.head? ≠ some '-'
  last : label.getLast? ≠ some '-'

/-- **A domain name.** -/
structure IsDomainName (name : String) : Prop where
  several : 2 ≤ (labels name).length
  all : ∀ label ∈ labels name, IsLabel label
  short : name.length ≤ 253

/-- A domain name with line breaks after labels of it, one at least. -/
structure IsBroken (name : String) : Prop where
  several : 2 ≤ (labels name).length
  all : ∀ label ∈ labels name, IsLabel label ∨ ∃ body, IsLabel body ∧ label = body ++ ['\n']
  short : name.length ≤ 253
  broken : '\n' ∈ name.toList

/-- The text that is checked: stripped, in lower case, without the dots that end it, and encoded. -/
def PythonText.form (python : PythonText) (value : String) : Option String :=
  python.encodeIdna (rstripOf (· == '.') (python.lower (strip value)))

/-! ### What the expression accepts -/

theorem IsLabel.line_not_mem {label : List Char} (isLabel : IsLabel label) : '\n' ∉ label := fun line =>
  absurd (isLabel.chars '\n' line) (by decide)

theorem isDomainLabel_of_getLast {label : List Char} (line : label.getLast? ≠ some '\n') :
    isDomainLabel label = true ↔ IsLabel label := by
  rw [isDomainLabel, if_neg line]
  simp only [Bool.and_eq_true, List.all_eq_true, decide_eq_true_eq]
  constructor
  · rintro ⟨⟨⟨chars, some, short⟩, head⟩, last⟩
    exact ⟨some, short, chars, head, last⟩
  · rintro ⟨some, short, chars, head, last⟩
    exact ⟨⟨⟨chars, some, short⟩, head⟩, last⟩

theorem isDomainLabel_append_line {body : List Char} (line : body.getLast? ≠ some '\n') :
    isDomainLabel (body ++ ['\n']) = isDomainLabel body := by
  simp only [isDomainLabel, List.getLast?_concat, List.dropLast_concat, if_true, if_neg line]

theorem isDomainLabel_iff (label : List Char) :
    isDomainLabel label = true ↔ IsLabel label ∨ ∃ body, IsLabel body ∧ label = body ++ ['\n'] := by
  by_cases line : label.getLast? = some '\n'
  · have whole := List.dropLast_append_getLast? _ line
    have notLabel : ¬ IsLabel label := fun isLabel => isLabel.line_not_mem (List.mem_of_getLast? line)
    constructor
    · intro matched
      have body : IsLabel label.dropLast := by
        simp only [isDomainLabel, if_pos line, Bool.and_eq_true, List.all_eq_true, decide_eq_true_eq]
          at matched
        obtain ⟨⟨⟨chars, some, short⟩, head⟩, last⟩ := matched
        exact ⟨some, short, chars, head, last⟩
      exact .inr ⟨_, body, whole.symm⟩
    · rintro (isLabel | ⟨body, isLabel, rfl⟩)
      · exact absurd isLabel notLabel
      · have plain : body.getLast? ≠ some '\n' := fun ends => isLabel.line_not_mem (List.mem_of_getLast? ends)
        rw [isDomainLabel_append_line plain, isDomainLabel_of_getLast plain]
        exact isLabel
  · rw [isDomainLabel_of_getLast line]
    refine ⟨.inl, ?_⟩
    rintro (isLabel | ⟨body, -, rfl⟩)
    · exact isLabel
    · exact absurd List.getLast?_concat line

/-! ### What the check accepts -/

theorem mem_of_mem_labels {text : String} {label : List Char} (there : label ∈ labels text) {c : Char}
    (member : c ∈ label) : c ∈ text.toList := by
  have whole : ['.'].intercalate (text.toList.splitOn '.') = text.toList := List.intercalate_splitOn '.'
  rw [← whole]
  exact mem_intercalate there member

section Check

variable {python : PythonText} {value name : String}

theorem validateDomainName_iff : python.validateDomainName value = some name ↔
    python.form value = some name ∧ (IsDomainName name ∨ IsBroken name) := by
  rw [validateDomainName_eq_some]
  refine and_congr_right fun _ => ?_
  constructor
  · rintro ⟨several, matched, short⟩
    have each := fun label there => (isDomainLabel_iff label).mp (matched label there)
    by_cases broken : '\n' ∈ name.toList
    · exact .inr ⟨several, each, short, broken⟩
    · refine .inl ⟨several, fun label there => ?_, short⟩
      obtain isLabel | ⟨body, -, rfl⟩ := each label there
      · exact isLabel
      · exact absurd (mem_of_mem_labels there (List.mem_append_right _ List.mem_cons_self)) broken
  · rintro (isName | isBroken)
    · exact ⟨isName.several, fun label there => (isDomainLabel_iff label).mpr (.inl (isName.all label there)),
        isName.short⟩
    · exact ⟨isBroken.several, fun label there => (isDomainLabel_iff label).mpr (isBroken.all label there),
        isBroken.short⟩

theorem IsDomainName.chars (isName : IsDomainName name) {c : Char} (member : c ∈ name.toList) :
    isLabelChar c = true ∨ c = '.' := by
  obtain dot | ⟨label, there, inside⟩ := mem_labels member
  · exact .inr dot
  · exact .inl ((isName.all label there).chars c inside)

/-- **The check is exact on a text**: it returns the text's form where that is a domain name, and nothing
else; what it returns may stand between quotes. -/
structure ChecksExactly (python : PythonText) (value : String) : Prop where
  accepts : ∀ name, python.validateDomainName value = some name ↔
    python.form value = some name ∧ IsDomainName name
  plain : ∀ name, python.validateDomainName value = some name →
    ∀ c ∈ name.toList, isLabelChar c = true ∨ c = '.'

/-- **The domain check is exact on every text but those whose form is a domain name with line breaks after its
labels.** -/
theorem checksExactly_iff (python : PythonText) (value : String) :
    ChecksExactly python value ↔ ¬ ∃ name, python.form value = some name ∧ IsBroken name := by
  constructor
  · rintro ⟨-, plain⟩ ⟨name, formed, isBroken⟩
    have accepted := validateDomainName_iff.mpr ⟨formed, .inr isBroken⟩
    exact absurd (plain name accepted '\n' isBroken.broken) (by decide)
  · intro whole
    have accepts : ∀ name, python.validateDomainName value = some name ↔
        python.form value = some name ∧ IsDomainName name := by
      intro name
      rw [validateDomainName_iff]
      refine and_congr_right fun formed => or_iff_left fun isBroken => whole ⟨name, formed, isBroken⟩
    exact ⟨accepts, fun name accepted c member => ((accepts name).mp accepted).2.chars member⟩

end Check

/-- A line break after the first label. -/
theorem line_break_accepted : ¬ ∀ value, ChecksExactly asciiText value := by
  intro exact
  have accepted : asciiText.validateDomainName "example\n.com" = some "example\n.com" := by decide
  exact absurd ((exact _).plain _ accepted '\n' (by decide)) (by decide)

end SuiteCloud.Mail.Tenancy
