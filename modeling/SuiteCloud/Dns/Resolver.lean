/-
**What verification compares.**

`suite_cloud/dns/resolver.py`: a public resolver's answer and the expected value, made comparable by
`normalize_record_value`.

* `verifyDnsRecord_eq_true` — **verified** exactly when some resolver's answer holds a value that is the
  expected one after `normalizeRecordValue`.
* `normalizeRecordValue_quoted` — one pair of quotes makes no difference to a TXT value.
-/

import Mathlib.Data.List.Infix
import SuiteCloud.Dns.Record
import SuiteCloud.Library.Trim

namespace SuiteCloud.Dns

open SuiteCloud.Library

/-- `value.replace('" "', "")`. -/
def dropSeparators : List Char → List Char
  | '"' :: ' ' :: '"' :: rest => dropSeparators rest
  | c :: rest => c :: dropSeparators rest
  | [] => []

/-- A DKIM key's name. -/
def isDomainKey (fqdn : String) : Bool := decide ("._domainkey.".toList <:+: fqdn.toList)

/-- `normalize_record_value`. -/
def normalizeRecordValue (site : Site) (type : RecordType) (value : String) (fqdn : String) : String :=
  let value := String.ofList ((dropSeparators (strip value).toList).filter (· ≠ '"'))
  let value := if type ∈ [.mx, .cname, .a, .aaaa] then site.lower (rstripOf (· == '.') value) else value
  if type = .txt ∧ isDomainKey fqdn then String.ofList (value.toList.filter (· ≠ ' ')) else value

variable {site : Site} {fqdn : String} {type : RecordType} {expected : String}

/-- `verify_dns_record`, of the answers of the resolvers it asks; one that could not answer gives none. -/
def verifyDnsRecord (site : Site) (fqdn : String) (type : RecordType) (expected : String) :
    Bool → List (Option (List String)) → Option Bool
  | answered, [] => if answered then some false else none
  | answered, none :: rest => verifyDnsRecord site fqdn type expected answered rest
  | _, some values :: rest =>
      if values.any fun actual =>
          normalizeRecordValue site type actual fqdn = normalizeRecordValue site type expected fqdn then
        some true
      else verifyDnsRecord site fqdn type expected true rest

/-- **Verified**: some resolver's answer holds the expected value. -/
theorem verifyDnsRecord_eq_true {answered : Bool} {answers : List (Option (List String))} :
    verifyDnsRecord site fqdn type expected answered answers = some true ↔
      ∃ values, some values ∈ answers ∧ ∃ actual ∈ values,
        normalizeRecordValue site type actual fqdn = normalizeRecordValue site type expected fqdn := by
  induction answers generalizing answered with
  | nil =>
    cases answered with
    | true => simp [verifyDnsRecord]
    | false => simp [verifyDnsRecord]
  | cons answer rest ih =>
    cases answer with
    | none => simp [verifyDnsRecord, ih]
    | some values =>
      rw [verifyDnsRecord]
      by_cases agrees : (values.any fun actual =>
          normalizeRecordValue site type actual fqdn = normalizeRecordValue site type expected fqdn) = true
      · obtain ⟨actual, member, same⟩ := List.any_eq_true.mp agrees
        rw [if_pos agrees]
        exact iff_of_true rfl ⟨values, List.mem_cons_self, actual, member, of_decide_eq_true same⟩
      · rw [if_neg agrees, ih]
        constructor
        · rintro ⟨found, member, others⟩
          exact ⟨found, List.mem_cons_of_mem _ member, others⟩
        · rintro ⟨found, member, actual, among, same⟩
          rcases List.mem_cons.mp member with here | later
          · obtain rfl := Option.some.inj here
            exact absurd (List.any_eq_true.mpr ⟨actual, among, decide_eq_true same⟩) agrees
          · exact ⟨found, later, actual, among, same⟩

/-! ### A text in one pair of quotes -/

/-- The text as one string. -/
def quote (text : String) : String := String.ofList ('"' :: text.toList ++ ['"'])

theorem dropSeparators_quote_cons {chars : List Char} (first : chars.head? ≠ some ' ') :
    dropSeparators ('"' :: chars) = '"' :: dropSeparators chars := by
  refine dropSeparators.eq_2 _ _ fun rest _ starts => first ?_
  rw [starts]
  rfl

theorem dropSeparators_append_quote {chars : List Char} (last : chars.getLast? ≠ some ' ') :
    dropSeparators (chars ++ ['"']) = dropSeparators chars ++ ['"'] := by
  induction chars using dropSeparators.induct with
  | case1 rest ih =>
    refine ih fun ends => last ?_
    rw [List.getLast?_cons, List.getLast?_cons, List.getLast?_cons, ends]
    rfl
  | case2 c rest apart ih =>
    have later : rest.getLast? ≠ some ' ' := fun ends => last (by rw [List.getLast?_cons, ends]; rfl)
    have apart' : ∀ tail, c = '"' → rest ++ ['"'] = ' ' :: '"' :: tail → False := by
      intro tail quoted starts
      match rest, starts with
      | [], starts => cases starts
      | [d], starts =>
        obtain ⟨rfl, -⟩ := List.cons.inj starts
        exact last rfl
      | d :: e :: others, starts =>
        obtain ⟨rfl, next⟩ := List.cons.inj starts
        obtain ⟨rfl, -⟩ := List.cons.inj next
        exact apart others quoted rfl
    rw [List.cons_append, dropSeparators.eq_2 _ _ apart', dropSeparators.eq_2 _ _ apart, ih later,
      List.cons_append]
  | case3 => rfl

theorem strip_quote (text : String) : strip (quote text) = quote text := by
  refine strip_eq_self ?_ ?_
  · intro c first
    rw [quote, String.toList_ofList, List.cons_append, List.head?_cons] at first
    obtain rfl := Option.some.inj first
    decide
  · intro c last
    rw [quote, String.toList_ofList, List.getLast?_concat] at last
    obtain rfl := Option.some.inj last
    decide

theorem head_ne_space {text : String} (bare : strip text = text) : text.toList.head? ≠ some ' ' := by
  intro first
  have space := @strip_head text ' ' (by rw [bare]; exact first)
  cases space

theorem last_ne_space {text : String} (bare : strip text = text) : text.toList.getLast? ≠ some ' ' := by
  intro last
  obtain ⟨-, -, -, -, -, -, ends⟩ := stripOf_eq_iff.mp bare
  exact absurd (ends ' ' last) (by decide)

/-- **One pair of quotes** makes no difference to a text with no white space at its ends. -/
theorem normalizeRecordValue_quoted {text : String} (bare : strip text = text) :
    normalizeRecordValue site type (quote text) fqdn = normalizeRecordValue site type text fqdn := by
  have chars : (dropSeparators (strip (quote text)).toList).filter (· ≠ '"')
      = (dropSeparators (strip text).toList).filter (· ≠ '"') := by
    have first : (text.toList ++ ['"']).head? ≠ some ' ' := by
      have starts := head_ne_space bare
      cases chars : text.toList with
      | nil => decide
      | cons c rest =>
        rw [chars] at starts
        exact starts
    rw [strip_quote, bare, quote, String.toList_ofList, List.cons_append, dropSeparators_quote_cons first,
      dropSeparators_append_quote (last_ne_space bare)]
    simp
  simp only [normalizeRecordValue, chars]

end SuiteCloud.Dns
