/-
**The members a recipient patch names.**

`push_recipient_changes` of `suite_cloud/mail/doctype/mailing_list/mailing_list.py` writes the key of a
recipient as `recipients/<address>`, and `ManagementService.update` reads a key as a JSON pointer. An
address has no `/`, but `validate_email_address` lets a `~` through.

* `recipientKey`, `wirePatch` — the keys, and a patch as it is sent.
* `applyWire` — what the cluster does with it: a key is a path.
* `not_mem_of_accepted` — an accepted address is one token.
* `recipient_keys_iff` — **each key names its address, and different addresses are named apart**, when no
  address has an escape sequence, and only then.
* `applyWire_pushed` — what is pushed is then what the cluster holds.
* `one_member_for_two_addresses` — two accepted addresses whose keys name the same member.
-/

import SuiteCloud.Library.JsonPointer
import SuiteCloud.Mail.Lists.Model

namespace SuiteCloud.Mail.Lists

open SuiteCloud.Library SuiteCloud.Mail.Tenancy

/-! ## The keys -/

/-- The key of a recipient. -/
def recipientKey (email : String) : String := "recipients/" ++ email

/-- A patch as it is sent. -/
def wirePatch (patch : Patch) : Dict String Bool :=
  Dict.ofList (patch.map fun entry => (recipientKey entry.1, entry.2))

/-- What the cluster does with an entry: its key is a path, and one of two tokens names a member. -/
def applyEntry (recipients : Finset String) (key : String) (value : Bool) : Finset String :=
  match tokens key with
  | ["recipients", member] => if value then insert member recipients else recipients.erase member
  | _ => recipients

/-- **What the cluster does with a patch** that is sent. -/
def applyWire (recipients : Finset String) (wire : Dict String Bool) : Finset String :=
  wire.foldl (fun members entry => applyEntry members entry.1 entry.2) recipients

variable {platform : Platform} {value email other : String} {recipients : Finset String}
  {patch : Patch} {list : MailingList} {added removed : List String}

theorem not_mem_of_accepted (accepted : platform.validateEmailAddress value = some email) :
    '/' ∉ email.toList := by
  obtain ⟨name, whole, -, -, -, unmarked, named⟩ := validateEmailAddress_eq_some accepted
  rw [not_or] at unmarked
  intro member
  rw [whole, String.toList_append, String.toList_append, List.mem_append, List.mem_append] at member
  rcases member with (inLocal | at_sign) | inName
  · exact unmarked.2 inLocal
  · exact absurd at_sign (by decide)
  · rcases validateDomainName_mem named inName with label | dot | line
    · exact absurd label (by decide)
    · exact absurd dot (by decide)
    · exact absurd line (by decide)

theorem tokens_recipientKey (single : '/' ∉ email.toList) :
    tokens (recipientKey email) = ["recipients", unescape email] := by
  have key : recipientKey email = "recipients" ++ "/" ++ email := rfl
  rw [key, tokens_append, tokens_of_not_mem single]
  have first : tokens "recipients" = ["recipients"] := by decide
  rw [first]
  rfl

theorem names_iff (single : '/' ∉ email.toList) :
    tokens (recipientKey email) = ["recipients", email] ↔ IsPlain email := by
  rw [tokens_recipientKey single, ← unescape_eq_self]
  constructor
  · intro same
    exact (List.cons.inj (List.cons.inj same).2).1
  · intro same
    rw [same]

/-! ## What is pushed -/

theorem recipientKey_injective (same : recipientKey email = recipientKey other) : email = other := by
  have chars := congrArg String.toList same
  unfold recipientKey at chars
  rw [String.toList_append, String.toList_append] at chars
  exact String.toList_injective (List.append_cancel_left chars)

theorem wirePatch_eq (nodup : patch.keys.Nodup) :
    wirePatch patch = patch.map fun entry => (recipientKey entry.1, entry.2) := by
  refine Dict.ofList_of_nodup ?_
  have keys : (patch.map fun entry => (recipientKey entry.1, entry.2)).map Prod.fst
      = patch.keys.map recipientKey := by
    unfold Dict.keys
    rw [List.map_map, List.map_map]
    rfl
  show ((patch.map fun entry => (recipientKey entry.1, entry.2)).map Prod.fst).Nodup
  rw [keys]
  exact nodup.map fun _ _ => recipientKey_injective

theorem applyWire_eq (nodup : patch.keys.Nodup)
    (names : ∀ email ∈ patch.keys, tokens (recipientKey email) = ["recipients", email]) :
    applyWire recipients (wirePatch patch) = applyPatch recipients patch := by
  rw [wirePatch_eq nodup, applyWire, applyPatch, List.foldl_map]
  refine List.foldl_ext _ _ _ fun members entry member => ?_
  have named := names entry.1 (List.mem_map_of_mem member)
  simp only [applyEntry, named]

/-- **What `push_recipient_changes` sends is what is meant**, where no address has an escape sequence. -/
theorem applyWire_pushed (single : ∀ email ∈ added ++ removed, '/' ∉ email.toList)
    (plain : ∀ email ∈ added ++ removed, IsPlain email) :
    (pushRecipientChanges list added removed).sent.foldl
        (fun members patch => applyWire members (wirePatch patch)) recipients =
      (pushRecipientChanges list added removed).sent.foldl applyPatch recipients := by
  unfold pushRecipientChanges
  split
  · rfl
  · refine List.foldl_ext _ _ _ fun members patch member => ?_
    -- A batch is a part of the changes.
    have part : patch.Sublist (Dict.ofList (added.map (·, true) ++ removed.map (·, false))) := by
      have flat := List.sublist_flatten_of_mem member
      simp only [Calls.send, flatten_batches (show 0 < patchBatch by decide)] at flat
      exact flat
    refine applyWire_eq (Dict.nodup_keys_ofList.sublist (part.map _)) fun email inside => ?_
    have among : email ∈ added ++ removed := by
      have known := Dict.mem_keys_ofList.mp ((part.map Prod.fst).subset inside)
      simpa using known
    exact (names_iff (single email among)).mpr (plain email among)

/-! ## Which member a key names -/

/-- **When every key names its address.** For any addresses that `validate_email_address` accepts, the
keys of the patch, read as JSON pointers, name exactly these members, and different addresses different
ones, if and only if none of the addresses has `~0` or `~1` in it. -/
theorem recipient_keys_iff (platform : Platform) (addresses : List String)
    (accepted : ∀ email ∈ addresses, ∃ value, platform.validateEmailAddress value = some email) :
    ((∀ email ∈ addresses, tokens (recipientKey email) = ["recipients", email]) ∧
      ∀ email ∈ addresses, ∀ other ∈ addresses, email ≠ other →
        tokens (recipientKey email) ≠ tokens (recipientKey other)) ↔
      ∀ email ∈ addresses, IsPlain email := by
  have single : ∀ email ∈ addresses, '/' ∉ email.toList := fun email member =>
    (accepted email member).elim fun _ => not_mem_of_accepted
  constructor
  · rintro ⟨names, -⟩ email member
    exact (names_iff (single email member)).mp (names email member)
  · intro plain
    have names : ∀ email ∈ addresses, tokens (recipientKey email) = ["recipients", email] :=
      fun email member => (names_iff (single email member)).mpr (plain email member)
    refine ⟨names, fun email member other there different same => different ?_⟩
    rw [names email member, names other there] at same
    exact (List.cons.inj (List.cons.inj same).2).1

/-- Two addresses without a `~`. -/
theorem recipient_keys_iff_two :
    tokens (recipientKey "ann@example.com") = ["recipients", "ann@example.com"] ∧
      tokens (recipientKey "ann@example.com") ≠ tokens (recipientKey "bob@example.com") := by
  have accepted : ∀ email ∈ ["ann@example.com", "bob@example.com"],
      ∃ value, asciiPlatform.validateEmailAddress value = some email := by
    intro email member
    refine ⟨email, ?_⟩
    rcases List.mem_cons.mp member with rfl | member
    · decide
    · obtain rfl := List.mem_singleton.mp member
      decide
  obtain ⟨names, apart⟩ := (recipient_keys_iff asciiPlatform _ accepted).mpr (by
    intro email member
    refine unescape_eq_self.mp ?_
    rcases List.mem_cons.mp member with rfl | member
    · decide
    · obtain rfl := List.mem_singleton.mp member
      decide)
  exact ⟨names _ List.mem_cons_self,
    apart _ List.mem_cons_self _ (List.mem_cons_of_mem _ List.mem_cons_self) (by decide)⟩

/-- **Two addresses whose keys name one member**: the `~0` of the one is the `~` of the other. -/
theorem one_member_for_two_addresses :
    asciiPlatform.validateEmailAddress "a~0b@example.com" = some "a~0b@example.com" ∧
      asciiPlatform.validateEmailAddress "a~b@example.com" = some "a~b@example.com" ∧
      tokens (recipientKey "a~0b@example.com") = ["recipients", "a~b@example.com"] ∧
      tokens (recipientKey "a~b@example.com") = ["recipients", "a~b@example.com"] := by
  decide

end SuiteCloud.Mail.Lists
