/-
**Playbook output: what masking leaves of the secrets.**

`secret_spellings` and `mask_secrets` of `suite_cloud/utils/__init__.py`, which `PlaybookRun` of
`suite_cloud/provisioning/ansible.py` puts between a playbook's output and what is stored. A secret is spelled
as it is and as `json.dumps` writes it, in either form; the spellings are replaced one after the other.

* `spellings`, `secretSpellings` — the spellings of a secret, and those of a list of secrets.
* `maskSecrets`, `mask` — the text with them replaced.
* `mem_secretSpellings` — which spellings are replaced.
* `mark_not_mem_spelling` — no spelling of a secret has an asterisk that the secret has not.
* `spelling_infix_dumps` — **what quotes a secret holds a spelling of it**.
* `secrets_masked` — **no spelling is left**.
-/

import Mathlib.Data.List.Dedup
import Mathlib.Data.List.ReduceOption
import SuiteCloud.Library.JsonStyle
import SuiteCloud.Library.Replace

namespace SuiteCloud.Provisioning.Masking

open SuiteCloud.Library

/-- A text: a secret, or what a playbook put out. -/
abbrev Text := List Char

/-- **The order a set of texts is gone through in**: any order. -/
structure SetOrder where
  iterate : List Text → List Text
  perm : ∀ texts, (iterate texts).Perm texts

/-- `json.dumps`. -/
def ascii : Json.Style := Json.compact Json.asciiEscape Json.reads_asciiEscape

/-- `json.dumps(…, ensure_ascii=False)`. -/
def unescaped : Json.Style := Json.compact Json.plainEscape Json.reads_plainEscape

/-- A text as `json.dumps` writes it. -/
def dumps (form : Json.Style) (text : Text) : Text := form.quoted (String.ofList text)

/-- `text[1:-1]`. -/
def inner (text : Text) : Text := text.tail.dropLast

/-- The spellings of a secret. -/
def spellings (secret : Text) : List Text := [secret, inner (dumps ascii secret), inner (dumps unescaped secret)]

/-- **`secret_spellings`**: the longest first, the others in the order of the set. -/
def secretSpellings (order : SetOrder) (secrets : List (Option Text)) : List Text :=
  (order.iterate (((secrets.reduceOption.filter (· ≠ [])).flatMap spellings).dedup)).mergeSort
    fun first second => second.length ≤ first.length

/-- **`mask_secrets`.** -/
def maskSecrets (text : Text) (masked : List Text) : Text := replaceAll masked "***".toList text

/-- `PlaybookRun.mask`, of a run with the secrets of `__secret_values__`. -/
def mask (order : SetOrder) (secrets : List (Option Text)) : Option Text → Option Text
  | some text => if text = [] then some text else some (maskSecrets text (secretSpellings order secrets))
  | none => none

section Spellings

variable {order : SetOrder} {secrets : List (Option Text)} {secret spelling text : Text} {form : Json.Style}

theorem dumps_eq : dumps form text = '"' :: text.flatMap form.escape ++ ['"'] := by
  rw [dumps, Json.Style.quoted, String.toList_ofList]

theorem inner_dumps : inner (dumps form text) = text.flatMap form.escape := by
  rw [dumps_eq, inner, List.cons_append, List.tail_cons, List.dropLast_concat]

theorem spellings_eq :
    spellings secret = [secret, secret.flatMap Json.asciiEscape, secret.flatMap Json.plainEscape] := by
  rw [spellings, inner_dumps, inner_dumps]
  rfl

/-- **Which spellings are replaced**: those of the secrets that are not empty. -/
theorem mem_secretSpellings : spelling ∈ secretSpellings order secrets ↔
    ∃ secret, some secret ∈ secrets ∧ secret ≠ [] ∧ spelling ∈ spellings secret := by
  rw [secretSpellings, (List.mergeSort_perm _ _).mem_iff, (order.perm _).mem_iff, List.mem_dedup, List.mem_flatMap]
  simp only [List.mem_filter, List.reduceOption_mem_iff, decide_eq_true_iff, and_assoc]

theorem escape_ne_nil (form : Json.Style) (c : Char) : form.escape c ≠ [] := by
  intro none
  have read := form.escapes c []
  rw [none] at read
  cases read

theorem spelling_ne_nil (written : secret ≠ []) (member : spelling ∈ spellings secret) : spelling ≠ [] := by
  obtain ⟨c, rest, rfl⟩ := List.exists_cons_of_ne_nil written
  have escaped (form : Json.Style) : (c :: rest).flatMap form.escape ≠ [] := by
    rw [List.flatMap_cons]
    exact List.append_ne_nil_of_left_ne_nil (escape_ne_nil form c) _
  simp only [spellings, inner_dumps, List.mem_cons, List.not_mem_nil, or_false] at member
  rcases member with rfl | rfl | rfl
  · exact written
  · exact escaped ascii
  · exact escaped unescaped

/-- **No spelling has an asterisk that the secret has not.** -/
theorem mark_not_mem_spelling (plain : '*' ∉ secret) (member : spelling ∈ spellings secret) : '*' ∉ spelling := by
  have mark : '*' ∉ Json.escapeMarks := by decide
  rw [spellings_eq] at member
  simp only [List.mem_cons, List.not_mem_nil, or_false] at member
  rcases member with rfl | rfl | rfl
  · exact plain
  · intro among
    obtain ⟨c, own, escaped⟩ := List.mem_flatMap.mp among
    rcases Json.mem_asciiEscape escaped with ⟨rfl, -⟩ | marks
    · exact plain own
    · exact mark marks
  · intro among
    obtain ⟨c, own, escaped⟩ := List.mem_flatMap.mp among
    rcases Json.mem_plainEscape escaped with ⟨rfl, -⟩ | marks
    · exact plain own
    · exact mark marks

/-- **What quotes a secret holds a spelling of it**: the escapes of a text are those of its parts. -/
theorem spelling_infix_dumps (form : Json.Style) (quotes : secret <:+: text) :
    inner (dumps form secret) <:+: dumps form text := by
  obtain ⟨before, after, rfl⟩ := quotes
  refine ⟨'"' :: before.flatMap form.escape, after.flatMap form.escape ++ ['"'], ?_⟩
  rw [inner_dumps, dumps_eq]
  simp only [List.flatMap_append, List.cons_append, List.append_assoc]

theorem not_infix_maskSecrets (plain : ∀ secret, some secret ∈ secrets → '*' ∉ secret)
    (member : spelling ∈ secretSpellings order secrets) (text : Text) :
    ¬ spelling <:+: maskSecrets text (secretSpellings order secrets) := by
  have marks : ∀ c ∈ "***".toList, c = '*' := fun c member => List.eq_of_mem_replicate (n := 3) member
  refine not_infix_replaceAll marks (by decide) (fun spelling member => ?_) (fun spelling member => ?_) member
  · obtain ⟨secret, among, -, own⟩ := mem_secretSpellings.mp member
    exact mark_not_mem_spelling (plain secret among) own
  · obtain ⟨secret, -, written, own⟩ := mem_secretSpellings.mp member
    exact spelling_ne_nil written own

end Spellings

/-- **Secrets are masked.** No text keeps a spelling of a secret, where no secret has an asterisk; a text that
`json.dumps` writes of a string with a secret in it holds a spelling of that secret, and so is changed. -/
theorem secrets_masked (order : SetOrder) (secrets : List (Option Text)) :
    ((∀ secret, some secret ∈ secrets → '*' ∉ secret) →
      ∀ text secret, some secret ∈ secrets → secret ≠ [] →
        ¬ secret <:+: maskSecrets text (secretSpellings order secrets) ∧
        ∀ form ∈ [ascii, unescaped],
          ¬ inner (dumps form secret) <:+: maskSecrets text (secretSpellings order secrets)) ∧
    (∀ string secret, some secret ∈ secrets → secret ≠ [] → secret <:+: string → ∀ form ∈ [ascii, unescaped],
      ∃ spelling ∈ spellings secret, spelling ∈ secretSpellings order secrets ∧ spelling <:+: dumps form string) ∧
    ((∀ secret, some secret ∈ secrets → '*' ∉ secret) →
      ∀ string secret, some secret ∈ secrets → secret ≠ [] → secret <:+: string → ∀ form ∈ [ascii, unescaped],
        maskSecrets (dumps form string) (secretSpellings order secrets) ≠ dumps form string) := by
  have own {form : Json.Style} (either : form ∈ [ascii, unescaped]) (secret : Text) :
      inner (dumps form secret) ∈ spellings secret := by
    rcases List.mem_cons.mp either with rfl | second
    · exact List.mem_cons_of_mem _ List.mem_cons_self
    · obtain rfl := List.mem_singleton.mp second
      exact List.mem_cons_of_mem _ (List.mem_cons_of_mem _ List.mem_cons_self)
  have listed {secret spelling : Text} (member : some secret ∈ secrets) (written : secret ≠ [])
      (spelled : spelling ∈ spellings secret) : spelling ∈ secretSpellings order secrets :=
    mem_secretSpellings.mpr ⟨secret, member, written, spelled⟩
  refine ⟨fun plain text secret member written => ⟨?_, fun form either => ?_⟩,
    fun string secret member written quotes form either => ?_,
    fun plain string secret member written quotes form either same => ?_⟩
  · exact not_infix_maskSecrets plain (listed member written List.mem_cons_self) text
  · exact not_infix_maskSecrets plain (listed member written (own either secret)) text
  · exact ⟨_, own either secret, listed member written (own either secret), spelling_infix_dumps form quotes⟩
  · -- Before masking the spelling is there, after it is not.
    have left := not_infix_maskSecrets plain (listed member written (own either secret)) (dumps form string)
    rw [same] at left
    exact left (spelling_infix_dumps form quotes)

end SuiteCloud.Provisioning.Masking
