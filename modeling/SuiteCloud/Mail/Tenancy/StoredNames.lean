/-
**A name finds what it created.**

`normalize_name` and `owned` of `suite_cloud/api/tenant`, beside `validate_domain_name` and
`validate_email_address`: a name in a request is brought to the form that names are stored in. It is stripped
and lowered as a whole, and what stands after its last `@` encoded as it is; the validations strip that part
again and leave out the dots that end it.

* `Keeps` — what the codec keeps of a text.
* `owned` — a document of the tenant, by a name as it is asked for.
* `Finds`, `FindsAddress` — a name as it was given finds what is stored under the name made of it.
* `name_finds` — **it does where its domain part has no white space around it and no dot at its end**.
-/

import SuiteCloud.Library.Trim
import SuiteCloud.Mail.Aliases
import SuiteCloud.Mail.Tenancy.DomainNames

namespace SuiteCloud.Mail.Tenancy

open SuiteCloud.Library

/-! ### The codec -/

/-- **What the codec keeps**: an ASCII text as a whole, and of any text an `@`, its white space, and the dot
that ends it. -/
structure Keeps (python : PythonText) : Prop where
  ascii : ∀ {text code}, (∀ c ∈ text.toList, c.toNat < 128) → python.encodeIdna text = some code → code = text
  sign : ∀ {text code}, python.encodeIdna text = some code → '@' ∈ text.toList → '@' ∈ code.toList
  space : ∀ {text code}, python.encodeIdna text = some code → (∃ c ∈ text.toList, isSpace c = true) →
    ∃ c ∈ code.toList, isSpace c = true
  dot : ∀ {text code}, python.encodeIdna text = some code → text.toList.getLast? = some '.' →
    code.toList.getLast? = some '.'

/-! ### Finding -/

/-- **`owned`**: the tenant's document of a name. -/
def PythonText.owned (python : PythonText) {Doc : Type} (tenantOf : Doc → String) (tenant : String)
    (documents : String → Option Doc) (name : String) : Option Doc :=
  let name := python.normalizeName name
  (if name ≠ "" then documents name else none).filter fun doc => tenantOf doc = tenant

/-- **A name finds** what is stored under the name that was made of it. -/
structure Finds (python : PythonText) (given stored : String) : Prop where
  same : python.normalizeName given = stored
  again : python.normalizeName stored = stored
  owned : ∀ (Doc : Type) (tenantOf : Doc → String) (documents : String → Option Doc) (doc : Doc),
    stored ≠ "" → documents stored = some doc →
      python.owned tenantOf (tenantOf doc) documents given = some doc

/-- And an address acts on the alias that is stored for it. -/
structure FindsAddress (platform : Platform) (given stored : String) : Prop
    extends Finds platform.toPythonText given stored where
  add : ∀ email rows description, Aliases.hasRow stored rows →
    Aliases.edit platform email rows (.add given description) = .leaves
  remove : ∀ email rows, stored ≠ email → Aliases.hasRow stored rows →
    Aliases.edit platform email rows (.remove given) = .saves (rows.eraseP (·.aliasEmail = stored))
  setEnabled : ∀ email rows enabled, Aliases.hasRow stored rows →
    Aliases.edit platform email rows (.setEnabled given enabled)
      = .saves (Aliases.setFirst stored enabled rows)

theorem Finds.of_eq {python : PythonText} {given stored : String} (same : python.normalizeName given = stored)
    (again : python.normalizeName stored = stored) : Finds python given stored := by
  refine ⟨same, again, fun Doc tenantOf documents doc some there => ?_⟩
  rw [PythonText.owned]
  simp only [same, if_pos some, there, Option.filter_some, decide_true, if_true]

theorem FindsAddress.of_eq {platform : Platform} {given stored : String}
    (same : platform.normalizeName given = stored) (again : platform.normalizeName stored = stored) :
    FindsAddress platform given stored := by
  refine ⟨.of_eq same again, fun email rows description there => ?_, fun email rows other there => ?_,
    fun email rows enabled there => ?_⟩
  · simp only [Aliases.edit, same, there, if_true]
  · simp only [Aliases.edit, same, if_neg other, there, if_true]
  · simp only [Aliases.edit, same, there, if_true]

/-! ### Normalizing -/

section Normalizing

variable {python : PythonText} {value name text : String}

theorem normalizeName_of_not_mem (text_eq : python.lower (strip value) = text) (free : '@' ∉ text.toList) :
    python.normalizeName value = (python.encodeIdna text).getD text := by
  have plain : ∀ c ∈ text.toList.reverse, decide (c ≠ '@') = true := fun c member =>
    decide_eq_true fun sign => free (sign ▸ List.mem_reverse.mp member)
  simp only [PythonText.normalizeName, text_eq, if_neg free]
  rw [List.takeWhile_eq_self_iff.mpr plain, List.reverse_reverse, String.ofList_toList]

theorem normalizeName_of_parts {left right : String}
    (text_eq : python.lower (strip value) = left ++ "@" ++ right) (free : '@' ∉ right.toList) :
    python.normalizeName value = left ++ "@" ++ (python.encodeIdna right).getD right := by
  have chars : (left ++ "@" ++ right).toList.reverse
      = right.toList.reverse ++ '@' :: left.toList.reverse := by
    simp [String.toList_append]
  have plain : ∀ c ∈ right.toList.reverse, decide (c ≠ '@') = true := fun c member =>
    decide_eq_true fun sign => free (sign ▸ List.mem_reverse.mp member)
  have there : '@' ∈ (left ++ "@" ++ right).toList := by simp
  have after : (left ++ "@" ++ right).toList.reverse.takeWhile (· ≠ '@') = right.toList.reverse := by
    rw [chars, List.takeWhile_append_of_pos plain, List.takeWhile_cons_of_neg (by decide), List.append_nil]
  have before : (left ++ "@" ++ right).toList.reverse.dropWhile (· ≠ '@') = '@' :: left.toList.reverse := by
    rw [chars, List.dropWhile_append_of_pos plain, List.dropWhile_cons_of_neg (by decide)]
  simp only [PythonText.normalizeName, text_eq, if_pos there]
  rw [after, before, List.reverse_reverse, String.ofList_toList, List.reverse_cons, List.reverse_reverse]
  refine congrArg (· ++ _) (String.toList_injective ?_)
  simp [String.toList_append]

end Normalizing

/-! ### Domain names -/

section Domains

variable {python : PythonText} {value name : String}

theorem mem_rstripOf {dropped : Char → Bool} {text : String} {c : Char} (member : c ∈ text.toList)
    (kept : dropped c = false) : c ∈ (rstripOf dropped text).toList := by
  obtain ⟨after, all, whole, -⟩ := rstrips dropped text
  rw [whole, List.mem_append] at member
  obtain stays | ends := member
  · exact stays
  · rw [all c ends] at kept
    cases kept

theorem validateDomainName_head (stored : python.validateDomainName value = some name) {c : Char}
    (first : c ∈ name.toList.head?) : isSpace c = false := by
  obtain ⟨-, -, matched, -⟩ := validateDomainName_eq_some.mp stored
  obtain ⟨rest, chars⟩ := List.head?_eq_some_iff.mp first
  -- The first character is that of the first label.
  have dot : c ≠ '.' := by
    rintro rfl
    refine isDomainLabel_ne_nil (matched [] ?_) rfl
    rw [labels, chars, ← List.nil_append ('.' :: rest), List.splitOn_append_cons_self, List.splitOn_nil]
    exact List.mem_append_left _ List.mem_cons_self
  obtain ⟨label, there⟩ : ∃ label, c :: label ∈ labels name := by
    rw [labels, chars, List.splitOn_cons_eq_if_modifyHead, beq_false_of_ne dot, if_neg Bool.false_ne_true]
    cases parts : rest.splitOn '.' with
    | nil => exact absurd parts (List.splitOn_ne_nil _ _)
    | cons head others => exact ⟨head, List.mem_cons_self⟩
  obtain isLabel | ⟨body, isLabel, whole⟩ := (isDomainLabel_iff _).mp (matched _ there)
  · exact (isLabelChar_facts (isLabel.chars c List.mem_cons_self)).2.2.2.2
  · cases body with
    | nil => exact absurd isLabel.inhabited (by decide)
    | cons head body =>
      rw [List.cons_append, List.cons.injEq] at whole
      rw [whole.1]
      exact (isLabelChar_facts (isLabel.chars head List.mem_cons_self)).2.2.2.2

theorem at_not_mem_of_stored (stored : python.validateDomainName value = some name) : '@' ∉ name.toList := by
  intro member
  obtain label | dot | line := validateDomainName_mem stored member
  · exact absurd label (by decide)
  · exact absurd dot (by decide)
  · exact absurd line (by decide)

theorem strip_of_stored (stored : python.validateDomainName value = some name)
    (line : name.toList.getLast? ≠ some '\n') : strip name = name := by
  refine strip_eq_self (fun c first => validateDomainName_head stored first) fun c last => ?_
  obtain label | rfl | rfl := validateDomainName_mem stored (List.mem_of_mem_getLast? last)
  · exact (isLabelChar_facts label).2.2.2.2
  · decide
  · exact absurd last line

theorem normalizeName_of_stored (keeps : Keeps python)
    (stored : python.validateDomainName value = some name) :
    python.normalizeName name = name ↔ name.toList.getLast? ≠ some '\n' := by
  have settled : ∀ c ∈ (strip name).toList, python.isSettled c = true := fun c member =>
    validateDomainName_settled stored (mem_of_mem_strip member)
  have lowered : python.lower (strip name) = strip name := python.lower_eq_self settled
  have free : '@' ∉ (strip name).toList := fun member => at_not_mem_of_stored stored (mem_of_mem_strip member)
  rw [normalizeName_of_not_mem lowered free]
  constructor
  · intro same line
    have ascii : ∀ c ∈ (strip name).toList, c.toNat < 128 := by
      intro c member
      obtain label | rfl | rfl := validateDomainName_mem stored (mem_of_mem_strip member)
      · exact (isLabelChar_facts label).1
      · decide
      · decide
    have stripped : strip name = name := by
      cases encoded : python.encodeIdna (strip name) with
      | none => rw [encoded] at same; exact same
      | some code =>
        rw [encoded] at same
        exact (keeps.ascii ascii encoded).symm.trans same
    obtain ⟨-, -, -, -, -, -, last⟩ := strips isSpace name
    have core : stripOf isSpace name = name := stripped
    rw [core] at last
    exact absurd (last '\n' line) (by decide)
  · intro line
    rw [strip_of_stored stored line, encodeIdna_of_stored stored, Option.getD_some]

theorem normalizeName_of_given (keeps : Keeps python)
    (stored : python.validateDomainName value = some name) :
    python.normalizeName value = name ↔ (python.lower (strip value)).toList.getLast? ≠ some '.' := by
  obtain ⟨encoded, -⟩ := validateDomainName_eq_some.mp stored
  generalize text_eq : python.lower (strip value) = text at encoded
  have free : '@' ∉ text.toList := fun member =>
    at_not_mem_of_stored stored (keeps.sign encoded (mem_rstripOf member (by decide)))
  rw [normalizeName_of_not_mem text_eq free]
  constructor
  · intro same ends
    refine validateDomainName_getLast stored ?_
    rw [← same]
    cases whole : python.encodeIdna text with
    | none => exact ends
    | some code => exact keeps.dot whole ends
  · intro plain
    have undotted : rstripOf (· == '.') text = text := by
      refine rstripOf_eq_self fun c last => beq_false_of_ne ?_
      rintro rfl
      exact plain last
    rw [undotted] at encoded
    rw [encoded, Option.getD_some]

end Domains

/-! ### Addresses -/

theorem strip_strip (text : String) : strip (strip text) = strip text := by
  obtain ⟨-, -, -, -, -, first, last⟩ := strips isSpace text
  exact strip_eq_self first last

theorem mem_strip {text : String} {c : Char} (member : c ∈ text.toList) (kept : isSpace c = false) :
    c ∈ (strip text).toList := by
  obtain ⟨before, after, spaces, spaces', whole, -⟩ := strips isSpace text
  rw [whole, List.mem_append, List.mem_append] at member
  obtain (left | inside) | right := member
  · rw [spaces c left] at kept
    cases kept
  · exact inside
  · rw [spaces' c right] at kept
    cases kept

theorem space_of_strip_ne {text : String} (other : strip text ≠ text) :
    ∃ c ∈ text.toList, isSpace c = true := by
  by_contra plain
  have spaceless : ∀ c ∈ text.toList, isSpace c = false := fun c member =>
    Bool.not_eq_true _ ▸ fun space => plain ⟨c, member, space⟩
  exact other (strip_eq_self (fun c first => spaceless c (List.mem_of_mem_head? first))
    fun c last => spaceless c (List.mem_of_mem_getLast? last))

/-- **A domain part that is encoded as it is**: no white space around it, and no dot at its end. -/
def IsBare (domain : String) : Prop := strip domain = domain ∧ domain.toList.getLast? ≠ some '.'

section Emails

variable {platform : Platform} {value email : String}

theorem normalizeName_of_stored_address (stored : platform.validateEmailAddress value = some email) :
    platform.normalizeName email = email := by
  have settled := lower_strip_of_stored stored
  obtain ⟨name, rfl, -, -, -, -, named⟩ := validateEmailAddress_eq_some stored
  rw [normalizeName_of_parts settled (at_not_mem_of_stored named), encodeIdna_of_stored named,
    Option.getD_some]

theorem normalizeName_of_given_address (keeps : Keeps platform.toPythonText)
    (stored : platform.validateEmailAddress value = some email) :
    platform.normalizeName value = email ↔ IsBare (domainPart (platform.lower (strip value))) := by
  obtain ⟨name, rfl, -, parts, accepted, -, named⟩ := validateEmailAddress_eq_some stored
  have line : '\n' ∉ name.toList := platform.accepted_line (parts ▸ accepted) named
  have settled : ∀ c ∈ (platform.lower (strip value)).toList, platform.isSettled c = true :=
    fun c member => platform.isSettled_of_mem_lower member
  generalize text_eq : platform.lower (strip value) = text at parts named settled
  generalize localPart text = left at parts
  generalize domainPart text = domain at parts named
  have domainSettled : ∀ c ∈ (strip domain).toList, platform.isSettled c = true := fun c member =>
    settled c (by rw [parts, String.toList_append]; exact List.mem_append_right _ (mem_of_mem_strip member))
  obtain ⟨encoded, -⟩ := validateDomainName_eq_some.mp named
  rw [platform.lower_eq_self domainSettled] at encoded
  have free : '@' ∉ domain.toList := fun member =>
    at_not_mem_of_stored named
      (keeps.sign encoded (mem_rstripOf (mem_strip member (by decide)) (by decide)))
  rw [normalizeName_of_parts (text_eq.trans parts) free]
  constructor
  · intro same
    have same : (platform.encodeIdna domain).getD domain = name := (String.append_right_inj _).mp same
    constructor
    · by_contra other
      -- White space stays, and the stored name has none.
      have space := space_of_strip_ne other
      obtain ⟨c, member, spaced⟩ : ∃ c ∈ name.toList, isSpace c = true := by
        rw [← same]
        cases whole : platform.encodeIdna domain with
        | none => exact space
        | some code => exact keeps.space whole space
      rw [validateDomainName_isSpace named line member] at spaced
      cases spaced
    · intro ends
      refine validateDomainName_getLast named ?_
      rw [← same]
      cases whole : platform.encodeIdna domain with
      | none => exact ends
      | some code => exact keeps.dot whole ends
  · rintro ⟨stripped, plain⟩
    have undotted : rstripOf (· == '.') domain = domain := by
      refine rstripOf_eq_self fun c last => beq_false_of_ne ?_
      rintro rfl
      exact plain last
    rw [stripped, undotted] at encoded
    rw [encoded, Option.getD_some]

end Emails

/-! ### A name finds what it created -/

/-- **A name finds what it created** where its domain part is bare: all of a domain name, which must not be
stored with a line break at its end besides, and what stands after the `@` of an address. -/
theorem name_finds (platform : Platform) (keeps : Keeps platform.toPythonText) :
    (∀ value name, platform.validateDomainName value = some name →
      (Finds platform.toPythonText value name ↔
        IsBare (platform.lower (strip value)) ∧ name.toList.getLast? ≠ some '\n')) ∧
    ∀ value email, platform.validateEmailAddress value = some email →
      (FindsAddress platform value email ↔ IsBare (domainPart (platform.lower (strip value)))) := by
  constructor
  · intro value name stored
    have stripped : strip (platform.lower (strip value)) = platform.lower (strip value) := by
      rw [platform.strip_lower, strip_strip]
    constructor
    · intro finds
      exact ⟨⟨stripped, (normalizeName_of_given keeps stored).mp finds.same⟩,
        (normalizeName_of_stored keeps stored).mp finds.again⟩
    · rintro ⟨⟨-, plain⟩, line⟩
      exact .of_eq ((normalizeName_of_given keeps stored).mpr plain)
        ((normalizeName_of_stored keeps stored).mpr line)
  · intro value email stored
    constructor
    · exact fun finds => (normalizeName_of_given_address keeps stored).mp finds.same
    · exact fun bare => .of_eq ((normalizeName_of_given_address keeps stored).mpr bare)
        (normalizeName_of_stored_address stored)

theorem keeps_asciiText : Keeps asciiText where
  ascii _ encoded := (Option.some.inj encoded).symm
  sign encoded member := Option.some.inj encoded ▸ member
  space encoded member := Option.some.inj encoded ▸ member
  dot encoded ends := Option.some.inj encoded ▸ ends

theorem name_finds_example : FindsAddress asciiPlatform " Ann@Example.COM" "ann@example.com" := by
  refine ((name_finds asciiPlatform keeps_asciiText).2 _ _ (by decide +kernel)).mpr ⟨?_, ?_⟩
  · decide +kernel
  · decide +kernel

/-- A dot at the end of a name. -/
theorem dotted_name_lost : ¬ ∀ value name, asciiText.validateDomainName value = some name →
    Finds asciiText value name := by
  intro finds
  have found := (finds "example.com." "example.com" (by decide +kernel)).same
  exact absurd found (by decide +kernel)

end SuiteCloud.Mail.Tenancy
