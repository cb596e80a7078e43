/-
**Address rules: syntax, ownership and uniqueness.**

`suite_cloud/mail/tenancy/addresses.py`, the rules that accounts, groups and lists share. An address
and a domain name are stored in one form: lower case, the domain in IDNA form.

* `validateDomainName`, `validateEmailAddress` — the form of a text, or a refusal.
* `domainPart` — what `email.split("@", 1)[1]` gives.
* `assertAddressesDeliverable` — no address under a domain that another tenant holds.

### What is proved

* `validateDomainName_again`, `validateEmailAddress_again` — **a stored form is its own form**: what
  validation returned, it returns again.
* `validateEmailAddress_domain` — the domain of a stored address is a stored domain name.
-/

import SuiteCloud.Library.Text

namespace SuiteCloud.Mail.Tenancy

open SuiteCloud.Library

/-! ### Domain names -/

/-- `domain.split(".")`. -/
def labels (domain : String) : List (List Char) := domain.toList.splitOn '.'

/-- What Python does with a text. -/
structure PythonText where
  /-- `str.lower`. -/
  lower : String → String
  /-- The characters `str.lower` leaves as they are. -/
  isSettled : Char → Bool
  lower_eq_self : ∀ {text}, (∀ c ∈ text.toList, isSettled c = true) → lower text = text
  isSettled_of_mem_lower : ∀ {text c}, c ∈ (lower text).toList → isSettled c = true
  isSettled_ascii : ∀ {c : Char}, c.toNat < 128 → c.isUpper = false → isSettled c = true
  strip_lower : ∀ text, strip (lower text) = lower (strip text)
  /-- `str.encode("idna").decode()`, where it does not raise; an encoded text is its own encoding, unless
  a label of it came to be empty. -/
  encodeIdna : String → Option String
  encodeIdna_again : ∀ {text code}, encodeIdna text = some code → [] ∉ labels code →
    encodeIdna code = some code

/-- A character of `[a-z0-9-]`. -/
def isLabelChar (c : Char) : Bool := c.isLower || c.isDigit || c == '-'

/-- `DOMAIN_LABEL.match`: `$` also matches before a line break that ends the text. -/
def isDomainLabel (label : List Char) : Bool :=
  let body := if label.getLast? = some '\n' then label.dropLast else label
  body.all isLabelChar && decide (1 ≤ body.length ∧ body.length ≤ 63) &&
    decide (body.head? ≠ some '-') && decide (body.getLast? ≠ some '-')

/-- `normalize_domain`: the form of a domain, without judging validity. -/
def PythonText.normalizeDomain (python : PythonText) (value : String) : String :=
  let domain := rstripOf (· == '.') (python.lower (strip value))
  (python.encodeIdna domain).getD domain

/-- `validate_domain_name`. -/
def PythonText.validateDomainName (python : PythonText) (value : String) : Option String :=
  (python.encodeIdna (rstripOf (· == '.') (python.lower (strip value)))).bind fun domain =>
    if (labels domain).length < 2 ∨ ¬ (labels domain).all isDomainLabel ∨ domain.length > 253 then none
    else some domain

/-! ### Addresses -/

/-- What Python does with a text, and what Frappe accepts as an address. -/
structure Platform extends PythonText where
  /-- Frappe's `validate_email_address` returns a text. -/
  frappeValidateEmail : String → Bool
  /-- A name in an accepted address has no line break, -/
  accepted_line : ∀ {localPart domain name}, frappeValidateEmail (localPart ++ "@" ++ domain) = true →
    toPythonText.validateDomainName domain = some name → '\n' ∉ name.toList
  /-- and the address is accepted with the name in place of the text it is the form of. -/
  accepted_name : ∀ {localPart domain name}, frappeValidateEmail (localPart ++ "@" ++ domain) = true →
    toPythonText.validateDomainName domain = some name →
      frappeValidateEmail (localPart ++ "@" ++ name) = true

/-- `email.split("@", 1)[0]`. -/
def localPart (email : String) : String := String.ofList (email.toList.takeWhile (· ≠ '@'))

/-- `email.split("@", 1)[1]`. -/
def domainPart (email : String) : String := String.ofList ((email.toList.dropWhile (· ≠ '@')).drop 1)

/-- `validate_email_address`. -/
def Platform.validateEmailAddress (platform : Platform) (value : String) : Option String :=
  let email := platform.lower (strip value)
  if ¬ platform.frappeValidateEmail email ∨ email.toList.count '@' ≠ 1 then none
  else if '%' ∈ (localPart email).toList ∨ '/' ∈ (localPart email).toList then none
  else (platform.validateDomainName (domainPart email)).map (localPart email ++ "@" ++ ·)

/-- `assert_addresses_deliverable`: no address is under a domain that another tenant holds. `owner` is
the tenant of each Mail Domain there is. -/
def assertAddressesDeliverable (owner : String → Option String) (tenant : String)
    (emails : List String) : Bool :=
  emails.all fun email =>
    decide ('@' ∈ email.toList → ∀ holder ∈ owner (domainPart email), holder = tenant)

/-! ### Names in a request -/

/-- `MEMBERSHIP_CAP` of `suite_cloud/api/tenant`. -/
def membershipCap : ℕ := 500

/-- `as_list` of a list of texts: at most `cap`, and the blank ones left out. -/
def asList (values : List String) (cap : ℕ) : Option (List String) :=
  if cap < values.length then none else some ((values.map strip).filter (· ≠ ""))

/-- `normalize_name`: `rpartition("@")`, and the part after the last `@` encoded. -/
def PythonText.normalizeName (python : PythonText) (name : String) : String :=
  let text := (python.lower (strip name)).toList
  let domain := String.ofList (text.reverse.takeWhile (· ≠ '@')).reverse
  let encoded := (python.encodeIdna domain).getD domain
  if '@' ∈ text then String.ofList (text.reverse.dropWhile (· ≠ '@')).reverse ++ encoded else encoded

/-! ### A stored form is its own form -/

section Names

variable {python : PythonText} {value name : String}

theorem isLabelChar_facts {c : Char} (member : isLabelChar c = true) :
    c.toNat < 128 ∧ c.isUpper = false ∧ c ≠ '.' ∧ c ≠ '@' ∧ isSpace c = false := by
  have range : (97 ≤ c.toNat ∧ c.toNat ≤ 122) ∨ (48 ≤ c.toNat ∧ c.toNat ≤ 57) ∨ c.toNat = 45 := by
    rw [isLabelChar, Bool.or_eq_true, Bool.or_eq_true, beq_iff_eq] at member
    rcases member with (lower | digit) | rfl
    · obtain ⟨least, most⟩ := Bool.and_eq_true_iff.mp lower
      exact Or.inl ⟨of_decide_eq_true least, of_decide_eq_true most⟩
    · obtain ⟨least, most⟩ := Bool.and_eq_true_iff.mp digit
      exact Or.inr (Or.inl ⟨of_decide_eq_true least, of_decide_eq_true most⟩)
    · exact Or.inr (Or.inr rfl)
  refine ⟨by omega, ?_, ?_, ?_, ?_⟩
  · have outside : ¬ (65 ≤ c.toNat ∧ c.toNat ≤ 90) := by omega
    exact decide_eq_false outside
  · rintro rfl
    revert range
    decide
  · rintro rfl
    revert range
    decide
  · simp only [isSpace, Bool.or_eq_false_iff, decide_eq_false_iff_not, List.mem_cons,
      List.not_mem_nil, or_false]
    omega

theorem mem_splitOn {chars : List Char} {c : Char} (member : c ∈ chars) :
    c = '.' ∨ ∃ label ∈ chars.splitOn '.', c ∈ label := by
  induction chars with
  | nil => cases member
  | cons first rest ih =>
    rw [List.splitOn_cons_eq_if_modifyHead]
    cases parts : rest.splitOn '.' with
    | nil => exact absurd parts (List.splitOn_ne_nil _ _)
    | cons head others =>
      rw [parts] at ih
      by_cases dot : first = '.'
      · subst dot
        rw [beq_self_eq_true, if_pos rfl]
        rcases List.mem_cons.mp member with rfl | member
        · exact Or.inl rfl
        · exact (ih member).imp_right fun ⟨label, there, inside⟩ =>
            ⟨label, List.mem_cons_of_mem _ there, inside⟩
      · rw [beq_false_of_ne dot, if_neg Bool.false_ne_true, List.modifyHead_cons]
        rcases List.mem_cons.mp member with rfl | member
        · exact Or.inr ⟨_, List.mem_cons_self, List.mem_cons_self⟩
        · refine (ih member).imp_right ?_
          rintro ⟨label, there, inside⟩
          rcases List.mem_cons.mp there with rfl | there
          · exact ⟨_, List.mem_cons_self, List.mem_cons_of_mem _ inside⟩
          · exact ⟨label, List.mem_cons_of_mem _ there, inside⟩

theorem mem_labels {text : String} {c : Char} (member : c ∈ text.toList) :
    c = '.' ∨ ∃ label ∈ labels text, c ∈ label := mem_splitOn member

theorem isDomainLabel_mem {label : List Char} (matched : isDomainLabel label = true) {c : Char}
    (member : c ∈ label) : isLabelChar c = true ∨ c = '\n' := by
  simp only [isDomainLabel, Bool.and_eq_true, List.all_eq_true] at matched
  obtain ⟨⟨⟨chars, -⟩, -⟩, -⟩ := matched
  by_cases ends : label.getLast? = some '\n'
  · rw [if_pos ends] at chars
    rw [← List.dropLast_append_getLast? _ ends, List.mem_append] at member
    exact member.imp (chars c) List.mem_singleton.mp
  · rw [if_neg ends] at chars
    exact Or.inl (chars c member)

theorem isDomainLabel_ne_nil {label : List Char} (matched : isDomainLabel label = true) :
    label ≠ [] := by
  rintro rfl
  exact absurd matched (by decide)

theorem validateDomainName_eq_some :
    python.validateDomainName value = some name ↔
      python.encodeIdna (rstripOf (· == '.') (python.lower (strip value))) = some name ∧
        2 ≤ (labels name).length ∧ (∀ label ∈ labels name, isDomainLabel label = true) ∧
        name.length ≤ 253 := by
  rw [PythonText.validateDomainName, Option.bind_eq_some_iff]
  constructor
  · rintro ⟨domain, encoded, taken⟩
    split at taken
    · cases taken
    · rename_i passes
      obtain rfl := Option.some.inj taken
      rw [not_or, not_or, Nat.not_lt, not_not, Nat.not_lt, List.all_eq_true] at passes
      exact ⟨encoded, passes⟩
  · rintro ⟨encoded, passes⟩
    refine ⟨name, encoded, if_neg ?_⟩
    rw [not_or, not_or, Nat.not_lt, not_not, Nat.not_lt, List.all_eq_true]
    exact passes

theorem validateDomainName_mem (stored : python.validateDomainName value = some name) {c : Char}
    (member : c ∈ name.toList) : isLabelChar c = true ∨ c = '.' ∨ c = '\n' := by
  obtain ⟨-, -, matched, -⟩ := validateDomainName_eq_some.mp stored
  rcases mem_labels member with dot | ⟨label, there, inside⟩
  · exact Or.inr (Or.inl dot)
  · exact (isDomainLabel_mem (matched label there) inside).imp_right Or.inr

theorem validateDomainName_getLast (stored : python.validateDomainName value = some name) :
    name.toList.getLast? ≠ some '.' := by
  intro ends
  obtain ⟨-, -, matched, -⟩ := validateDomainName_eq_some.mp stored
  refine isDomainLabel_ne_nil (matched [] ?_) rfl
  rw [labels, ← List.dropLast_append_getLast? _ ends, List.splitOn_append_cons_self]
  exact List.mem_append_right _ List.mem_cons_self

theorem validateDomainName_settled (stored : python.validateDomainName value = some name) {c : Char}
    (member : c ∈ name.toList) : python.isSettled c = true := by
  rcases validateDomainName_mem stored member with label | rfl | rfl
  · exact python.isSettled_ascii (isLabelChar_facts label).1 (isLabelChar_facts label).2.1
  · exact python.isSettled_ascii (by decide) (by decide)
  · exact python.isSettled_ascii (by decide) (by decide)

theorem validateDomainName_isSpace (stored : python.validateDomainName value = some name)
    (line : '\n' ∉ name.toList) {c : Char} (member : c ∈ name.toList) : isSpace c = false := by
  rcases validateDomainName_mem stored member with label | rfl | rfl
  · exact (isLabelChar_facts label).2.2.2.2
  · decide
  · exact absurd member line

theorem encodeIdna_of_stored (stored : python.validateDomainName value = some name) :
    python.encodeIdna name = some name := by
  obtain ⟨encoded, -, matched, -⟩ := validateDomainName_eq_some.mp stored
  exact python.encodeIdna_again encoded fun empty => isDomainLabel_ne_nil (matched [] empty) rfl

theorem validateDomainName_again (stored : python.validateDomainName value = some name)
    (line : '\n' ∉ name.toList) : python.validateDomainName name = some name := by
  obtain ⟨encoded, passes⟩ := validateDomainName_eq_some.mp stored
  have stripped : strip name = name :=
    strip_eq_self
      (fun c first => validateDomainName_isSpace stored line (List.mem_of_mem_head? first))
      (fun c last => validateDomainName_isSpace stored line (List.mem_of_mem_getLast? last))
  have lowered : python.lower name = name :=
    python.lower_eq_self fun c member => validateDomainName_settled stored member
  have undotted : rstripOf (· == '.') name = name := by
    refine rstripOf_eq_self fun c last => beq_false_of_ne ?_
    rintro rfl
    exact validateDomainName_getLast stored last
  refine validateDomainName_eq_some.mpr ⟨?_, passes⟩
  rw [stripped, lowered, undotted]
  exact encodeIdna_of_stored stored

theorem normalizeDomain_of_stored (stored : python.validateDomainName name = some name) :
    python.normalizeDomain name = name := by
  obtain ⟨encoded, -⟩ := validateDomainName_eq_some.mp stored
  rw [PythonText.normalizeDomain]
  simp only [encoded, Option.getD_some]

end Names

section Emails

variable {platform : Platform} {value email : String}

theorem parts_append {left : String} (free : '@' ∉ left.toList) (right : String) :
    localPart (left ++ "@" ++ right) = left ∧ domainPart (left ++ "@" ++ right) = right := by
  have before : ∀ c ∈ left.toList, decide (c ≠ '@') = true := by
    intro c member
    rw [decide_eq_true_iff]
    rintro rfl
    exact free member
  have chars : (left ++ "@" ++ right).toList = left.toList ++ '@' :: right.toList := by
    rw [String.toList_append, String.toList_append, List.append_assoc]
    rfl
  constructor
  · rw [localPart, chars, List.takeWhile_append_of_pos before,
      List.takeWhile_cons_of_neg (by decide), List.append_nil, String.ofList_toList]
  · rw [domainPart, chars, List.dropWhile_append_of_pos before,
      List.dropWhile_cons_of_neg (by decide), List.drop_one, List.tail_cons, String.ofList_toList]

theorem parts_of_mem (there : '@' ∈ email.toList) :
    email = localPart email ++ "@" ++ domainPart email ∧ '@' ∉ (localPart email).toList := by
  obtain ⟨left, right, chars, free⟩ := List.eq_append_cons_of_mem there
  have whole : email = String.ofList left ++ "@" ++ String.ofList right := by
    refine String.toList_injective ?_
    simp only [chars, String.toList_append, String.toList_ofList, List.append_assoc]
    rfl
  have free : '@' ∉ (String.ofList left).toList := by
    rw [String.toList_ofList]
    exact free
  have parts := parts_append free (String.ofList right)
  rw [whole, parts.1, parts.2]
  exact ⟨rfl, free⟩

theorem validateEmailAddress_eq_some (stored : platform.validateEmailAddress value = some email) :
    let given := platform.lower (strip value)
    ∃ name, email = localPart given ++ "@" ++ name ∧ '@' ∉ (localPart given).toList ∧
      given = localPart given ++ "@" ++ domainPart given ∧
      platform.frappeValidateEmail given = true ∧
      ¬ ('%' ∈ (localPart given).toList ∨ '/' ∈ (localPart given).toList) ∧
      platform.validateDomainName (domainPart given) = some name := by
  intro given
  rw [Platform.validateEmailAddress] at stored
  change (if ¬ platform.frappeValidateEmail given ∨ given.toList.count '@' ≠ 1 then none
    else if '%' ∈ (localPart given).toList ∨ '/' ∈ (localPart given).toList then none
    else (platform.validateDomainName (domainPart given)).map (localPart given ++ "@" ++ ·)) = _
      at stored
  split at stored
  · cases stored
  · rename_i accepted
    split at stored
    · cases stored
    · rename_i unmarked
      rw [not_or, not_not, not_not] at accepted
      obtain ⟨name, named, whole⟩ := Option.map_eq_some_iff.mp stored
      have there : '@' ∈ given.toList := by
        refine List.count_pos_iff.mp ?_
        rw [accepted.2]
        exact Nat.one_pos
      obtain ⟨parts, free⟩ := parts_of_mem there
      exact ⟨name, whole.symm, free, parts, accepted.1, unmarked, named⟩

theorem validateEmailAddress_domain (stored : platform.validateEmailAddress value = some email) :
    platform.validateDomainName (domainPart email) = some (domainPart email) ∧
      '\n' ∉ (domainPart email).toList := by
  obtain ⟨name, rfl, free, parts, accepted, -, named⟩ := validateEmailAddress_eq_some stored
  rw [(parts_append free name).2]
  have line : '\n' ∉ name.toList := platform.accepted_line (parts ▸ accepted) named
  exact ⟨validateDomainName_again named line, line⟩

theorem validateEmailAddress_at (stored : platform.validateEmailAddress value = some email) :
    '@' ∈ email.toList := by
  obtain ⟨name, rfl, -⟩ := validateEmailAddress_eq_some stored
  simp

theorem lower_strip_of_stored (stored : platform.validateEmailAddress value = some email) :
    platform.lower (strip email) = email := by
  obtain ⟨named, line⟩ := validateEmailAddress_domain stored
  obtain ⟨name, whole, free, parts, accepted, unmarked, encoded⟩ :=
    validateEmailAddress_eq_some stored
  generalize given_eq : platform.lower (strip value) = given at whole free parts accepted unmarked encoded
  have split := parts_append free name
  rw [← whole] at split
  rw [split.2] at named line
  have chars : email.toList = (localPart given).toList ++ '@' :: name.toList := by
    rw [whole, String.toList_append, String.toList_append, List.append_assoc]
    rfl
  have stripped : strip email = email := by
    refine strip_eq_self (fun c first => ?_) (fun c last => ?_)
    · rw [chars] at first
      cases start : (localPart given).toList with
      | nil =>
        rw [start] at first
        obtain rfl := Option.some.inj first
        decide
      | cons head tail =>
        have first : c ∈ given.toList.head? := by
          rw [parts, String.toList_append, String.toList_append, start]
          rw [start] at first
          exact first
        rw [← given_eq, ← platform.strip_lower] at first
        exact strip_head first
    · rw [chars, List.getLast?_append_cons] at last
      rcases List.mem_cons.mp (List.mem_of_mem_getLast? last) with rfl | member
      · decide
      · exact validateDomainName_isSpace named line member
  have lowered : platform.lower email = email := by
    refine platform.lower_eq_self fun c member => ?_
    rw [chars, List.mem_append, List.mem_cons] at member
    rcases member with inLocal | rfl | inName
    · have member : c ∈ (platform.lower (strip value)).toList := by
        rw [given_eq, parts, String.toList_append, String.toList_append, List.append_assoc]
        exact List.mem_append_left _ inLocal
      exact platform.isSettled_of_mem_lower member
    · exact platform.isSettled_ascii (by decide) (by decide)
    · exact validateDomainName_settled named inName
  rw [stripped, lowered]

theorem validateEmailAddress_again (stored : platform.validateEmailAddress value = some email) :
    platform.validateEmailAddress email = some email := by
  obtain ⟨named, line⟩ := validateEmailAddress_domain stored
  have settled := lower_strip_of_stored stored
  obtain ⟨name, whole, free, parts, accepted, unmarked, encoded⟩ :=
    validateEmailAddress_eq_some stored
  generalize platform.lower (strip value) = given at whole free parts accepted unmarked encoded
  have split := parts_append free name
  rw [← whole] at split
  rw [split.2] at named line
  have chars : email.toList = (localPart given).toList ++ '@' :: name.toList := by
    rw [whole, String.toList_append, String.toList_append, List.append_assoc]
    rfl
  have once : email.toList.count '@' = 1 := by
    have nameFree : '@' ∉ name.toList := by
      intro member
      rcases validateDomainName_mem named member with label | dot | dot
      · exact (isLabelChar_facts label).2.2.2.1 rfl
      · exact absurd dot (by decide)
      · exact absurd dot (by decide)
    rw [chars, List.count_append, List.count_cons_self, List.count_eq_zero.mpr free,
      List.count_eq_zero.mpr nameFree]
  have accepted : platform.frappeValidateEmail email = true := by
    rw [whole]
    rw [parts] at accepted
    exact platform.accepted_name accepted encoded
  rw [Platform.validateEmailAddress]
  simp only [settled]
  rw [if_neg (by rw [not_or, not_not, not_not]; exact ⟨accepted, once⟩), split.1, if_neg unmarked, split.2,
    named, Option.map_some, ← whole]

end Emails

/-! ### Texts in ASCII -/

/-- Python, where every text is in ASCII. -/
def asciiText : PythonText where
  lower := asciiLower
  isSettled := fun c => !c.isUpper
  lower_eq_self := asciiLower_eq_self
  isSettled_of_mem_lower := by
    intro text c member
    rw [asciiLower, String.toList_ofList] at member
    obtain ⟨upper, -, rfl⟩ := List.mem_map.mp member
    rw [isUpper_toLower]
    rfl
  isSettled_ascii := by
    intro c _ upper
    rw [upper]
    rfl
  strip_lower := strip_asciiLower
  encodeIdna := some
  encodeIdna_again := fun _ _ => rfl

theorem asciiText_isSpace {domain name : String} (named : asciiText.validateDomainName domain = some name)
    (free : ∀ c ∈ domain.toList, isSpace c = false) : '\n' ∉ name.toList := by
  intro member
  obtain ⟨encoded, -⟩ := validateDomainName_eq_some.mp named
  obtain rfl := Option.some.inj encoded
  have member : '\n' ∈ (asciiLower (strip domain)).toList := mem_of_mem_rstripOf member
  rw [asciiLower, String.toList_ofList] at member
  obtain ⟨c, there, lowered⟩ := List.mem_map.mp member
  have space : isSpace c = true := by
    rw [← isSpace_toLower, lowered]
    rfl
  rw [free c (mem_of_mem_strip there)] at space
  cases space

/-- The text has no white space. -/
def isSpaceless (text : String) : Bool := text.toList.all fun c => !isSpace c

theorem isSpaceless_iff {text : String} :
    isSpaceless text = true ↔ ∀ c ∈ text.toList, isSpace c = false := by
  rw [isSpaceless, List.all_eq_true]
  exact forall₂_congr fun c _ => Iff.of_eq (Bool.not_eq_true' (isSpace c))

theorem isSpaceless_append {left right : String} :
    isSpaceless (left ++ right) = true ↔ isSpaceless left = true ∧ isSpaceless right = true := by
  rw [isSpaceless, String.toList_append, List.all_append, Bool.and_eq_true]
  rfl

/-- The platform of these texts, where an address is a text without white space. -/
def asciiPlatform : Platform where
  toPythonText := asciiText
  frappeValidateEmail := isSpaceless
  accepted_line := by
    intro localPart domain name accepted named
    exact asciiText_isSpace named (isSpaceless_iff.mp (isSpaceless_append.mp accepted).2)
  accepted_name := by
    intro localPart domain name accepted named
    obtain ⟨before, after⟩ := isSpaceless_append.mp accepted
    have line := asciiText_isSpace named (isSpaceless_iff.mp after)
    exact isSpaceless_append.mpr ⟨before,
      isSpaceless_iff.mpr fun c member => validateDomainName_isSpace named line member⟩

example : asciiPlatform.validateEmailAddress " Ann@Example.COM. " = some "ann@example.com" := by
  decide

end SuiteCloud.Mail.Tenancy
