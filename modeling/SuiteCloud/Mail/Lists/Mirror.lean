/-
**The cluster's recipients of a list are its enabled rows.**

Every operation tells the cluster of a difference only, so each must send exactly the difference it makes
to the enabled rows.

### What is proved

* `mem_foldl_adds`, `mem_foldl_removes` — what patches that only add, or only remove, leave.
* `addRecipients_done`, `removeRecipients_done` — **the specification of the bulk operations**: the
  addresses that end up on the list, and the ones that are pushed.
* `recipients_mirrored` — **in every run** the cluster's recipients of every list are the addresses of
  its enabled rows, no address has two rows, and `set_recipients` leaves exactly the addresses asked for.
-/

import SuiteCloud.Mail.Lists.Model
import SuiteCloud.Library.Maps

namespace SuiteCloud.Mail.Lists

open SuiteCloud.Library SuiteCloud.Mail.Tenancy

/-! ### Patches -/

section Patches

variable {members : Finset String} {patches : List Patch} {email : String}

theorem foldl_applyPatch (members : Finset String) (patches : List Patch) :
    patches.foldl applyPatch members = applyPatch members patches.flatten := by
  rw [applyPatch, List.foldl_flatten]
  rfl

theorem mem_applyPatch_adds {patch : Patch} (adds : ∀ entry ∈ patch, entry.2 = true) :
    email ∈ applyPatch members patch ↔ email ∈ members ∨ email ∈ patch.keys := by
  induction patch generalizing members with
  | nil => simp [applyPatch, Dict.keys]
  | cons entry rest ih =>
    have first : entry.2 = true := adds entry List.mem_cons_self
    have step : applyPatch members (entry :: rest) = applyPatch (insert entry.1 members) rest := by
      rw [applyPatch, List.foldl_cons, if_pos first]
      rfl
    rw [step, ih fun other member => adds other (List.mem_cons_of_mem _ member), Finset.mem_insert,
      Dict.keys, Dict.keys, List.map_cons, List.mem_cons, or_assoc, or_left_comm]

theorem mem_applyPatch_removes {patch : Patch} (removes : ∀ entry ∈ patch, entry.2 = false) :
    email ∈ applyPatch members patch ↔ email ∈ members ∧ email ∉ patch.keys := by
  induction patch generalizing members with
  | nil => simp [applyPatch, Dict.keys]
  | cons entry rest ih =>
    have first : entry.2 = false := removes entry List.mem_cons_self
    have step : applyPatch members (entry :: rest) = applyPatch (members.erase entry.1) rest := by
      rw [applyPatch, List.foldl_cons, first, if_neg Bool.false_ne_true]
      rfl
    rw [step, ih fun other member => removes other (List.mem_cons_of_mem _ member), Finset.mem_erase,
      Dict.keys, Dict.keys, List.map_cons, List.mem_cons, not_or]
    constructor
    · rintro ⟨⟨other, there⟩, free⟩
      exact ⟨there, other, free⟩
    · rintro ⟨there, other, free⟩
      exact ⟨⟨other, there⟩, free⟩

/-- The members that some of the patches name. -/
def named (patches : List Patch) : List String := Dict.keys patches.flatten

theorem mem_named : email ∈ named patches ↔ ∃ patch ∈ patches, email ∈ Dict.keys patch := by
  rw [named, Dict.keys, List.mem_map]
  constructor
  · rintro ⟨entry, member, rfl⟩
    obtain ⟨patch, there, inside⟩ := List.mem_flatten.mp member
    exact ⟨patch, there, List.mem_map_of_mem inside⟩
  · rintro ⟨patch, there, member⟩
    obtain ⟨entry, inside, rfl⟩ := List.mem_map.mp member
    exact ⟨entry, List.mem_flatten.mpr ⟨patch, there, inside⟩, rfl⟩

theorem mem_foldl_adds (adds : ∀ patch ∈ patches, ∀ entry ∈ patch, entry.2 = true) :
    email ∈ patches.foldl applyPatch members ↔ email ∈ members ∨ email ∈ named patches := by
  rw [foldl_applyPatch, mem_applyPatch_adds, named]
  intro entry member
  obtain ⟨patch, there, inside⟩ := List.mem_flatten.mp member
  exact adds patch there entry inside

theorem mem_foldl_removes (removes : ∀ patch ∈ patches, ∀ entry ∈ patch, entry.2 = false) :
    email ∈ patches.foldl applyPatch members ↔ email ∈ members ∧ email ∉ named patches := by
  rw [foldl_applyPatch, mem_applyPatch_removes, named]
  intro entry member
  obtain ⟨patch, there, inside⟩ := List.mem_flatten.mp member
  exact removes patch there entry inside

end Patches

/-! ### Pushes -/

section Pushes

variable {list : MailingList} {emails : List String} {present : Bool} {email : String}

/-- The patches that give these addresses one value. -/
def changing (emails : List String) (present : Bool) : List Patch :=
  batches patchBatch (Dict.ofList (emails.map (·, present)))

theorem patchBatch_pos : 0 < patchBatch := by decide

theorem mem_changing {patch : Patch} (sent : patch ∈ changing emails present) {entry : String × Bool}
    (member : entry ∈ patch) : entry.1 ∈ emails ∧ entry.2 = present := by
  have inside : entry ∈ (changing emails present).flatten := List.mem_flatten.mpr ⟨patch, sent, member⟩
  rw [changing, flatten_batches patchBatch_pos] at inside
  obtain ⟨email, there, rfl⟩ := List.mem_map.mp (Dict.mem_of_mem_ofList inside)
  exact ⟨there, rfl⟩

theorem named_changing : email ∈ named (changing emails present) ↔ email ∈ emails := by
  rw [named, changing, flatten_batches patchBatch_pos, Dict.mem_keys_ofList, List.map_map]
  show email ∈ emails.map id ↔ _
  rw [List.map_id]

theorem length_changing (distinct : emails.Nodup) :
    (changing emails present).length = (emails.length + patchBatch - 1) / patchBatch := by
  have keys : (Dict.keys (Dict.ofList (emails.map (·, present)))).Perm emails := by
    refine (List.perm_ext_iff_of_nodup Dict.nodup_keys_ofList distinct).mpr fun email => ?_
    rw [Dict.mem_keys_ofList, List.map_map]
    show email ∈ emails.map id ↔ _
    rw [List.map_id]
  have length := keys.length_eq
  rw [Dict.keys, List.length_map] at length
  rw [changing, length_batches, length]

theorem push_added (id : list.stalwartId ≠ none) :
    pushRecipientChanges list emails [] = .send (changing emails true) := by
  rw [pushRecipientChanges, if_neg (by rwa [Option.isNone_iff_eq_none]), List.map_nil, List.append_nil]
  rfl

theorem push_removed (id : list.stalwartId ≠ none) :
    pushRecipientChanges list [] emails = .send (changing emails false) := by
  rw [pushRecipientChanges, if_neg (by rwa [Option.isNone_iff_eq_none]), List.map_nil, List.nil_append]
  rfl

end Pushes

/-! ### The table -/

/-- The list has a row of this address, enabled or not. -/
def Table.Holds (table : Table) (list email : String) (enabled : Bool) : Prop :=
  ∃ row ∈ table.rows, row.mailingList = list ∧ row.email = email ∧ row.enabled = enabled

/-- The list has a row of this address. -/
def Table.Has (table : Table) (list email : String) : Prop :=
  ∃ row ∈ table.rows, row.mailingList = list ∧ row.email = email

/-- **What holds of the table in every run.** -/
structure Table.Sound (platform : Platform) (table : Table) : Prop where
  names : (table.rows.map (·.name)).Nodup
  later : ∀ row ∈ table.rows, row.name < table.next
  once : (table.rows.map fun row => (row.mailingList, row.email)).Nodup
  stored : ∀ row ∈ table.rows, platform.validateEmailAddress row.email = some row.email

section Rows

variable {platform : Platform} {table : Table} {list : MailingList} {name email : String}
variable {enabled : Bool}

theorem mem_rowsOf {row : MailingListRecipient} :
    row ∈ table.rowsOf name ↔ row ∈ table.rows ∧ row.mailingList = name := by
  rw [Table.rowsOf, List.mem_filter, decide_eq_true_iff]

theorem mem_emails_rowsOf : email ∈ (table.rowsOf name).map (·.email) ↔ table.Has name email := by
  rw [List.mem_map]
  constructor
  · rintro ⟨row, member, rfl⟩
    obtain ⟨there, rfl⟩ := mem_rowsOf.mp member
    exact ⟨row, there, rfl, rfl⟩
  · rintro ⟨row, there, rfl, rfl⟩
    exact ⟨row, mem_rowsOf.mpr ⟨there, rfl⟩, rfl⟩

theorem mem_emailsIn {emails : List String} :
    email ∈ table.emailsIn name emails ↔ table.Has name email ∧ email ∈ emails := by
  rw [Table.emailsIn, List.mem_map]
  constructor
  · rintro ⟨row, member, rfl⟩
    rw [List.mem_filter, decide_eq_true_iff, mem_rowsOf] at member
    obtain ⟨⟨there, rfl⟩, wanted⟩ := member
    exact ⟨⟨row, there, rfl, rfl⟩, wanted⟩
  · rintro ⟨⟨row, there, rfl, rfl⟩, wanted⟩
    refine ⟨row, ?_, rfl⟩
    rw [List.mem_filter, decide_eq_true_iff, mem_rowsOf]
    exact ⟨⟨there, rfl⟩, wanted⟩

theorem holds_insert {other address : String} {flag : Bool} :
    (table.insert list email enabled).Holds other address flag ↔
      table.Holds other address flag ∨ (other = list.email ∧ address = email ∧ flag = enabled) := by
  rw [Table.Holds, Table.Holds, Table.insert]
  simp only [List.mem_append, List.mem_singleton, or_and_right, exists_or, exists_eq_left]
  refine or_congr_right ?_
  rw [eq_comm, eq_comm (a := email), eq_comm (a := enabled)]

theorem has_insert {other address : String} :
    (table.insert list email enabled).Has other address ↔
      table.Has other address ∨ (other = list.email ∧ address = email) := by
  rw [Table.Has, Table.Has, Table.insert]
  simp only [List.mem_append, List.mem_singleton, or_and_right, exists_or, exists_eq_left]
  refine or_congr_right ?_
  rw [eq_comm, eq_comm (a := email)]

theorem Table.Sound.insert (sound : table.Sound platform) (fresh : ¬ table.Has list.email email)
    (valid : platform.validateEmailAddress email = some email) :
    (table.insert list email enabled).Sound platform where
  names := by
    rw [Table.insert, List.map_append, List.map_singleton, List.nodup_append]
    refine ⟨sound.names, List.nodup_singleton _, ?_⟩
    rintro name member _ there rfl
    obtain ⟨row, inside, rfl⟩ := List.mem_map.mp member
    exact absurd (List.mem_singleton.mp there) (sound.later row inside).ne
  later := by
    intro row member
    rcases List.mem_append.mp member with there | new
    · exact (sound.later row there).trans (Nat.lt_succ_self _)
    · obtain rfl := List.mem_singleton.mp new
      exact Nat.lt_succ_self _
  once := by
    rw [Table.insert, List.map_append, List.map_singleton, List.nodup_append]
    refine ⟨sound.once, List.nodup_singleton _, ?_⟩
    rintro key member _ there rfl
    obtain ⟨row, inside, same⟩ := List.mem_map.mp member
    obtain rfl := List.mem_singleton.mp there
    obtain ⟨list_eq, email_eq⟩ := Prod.mk.inj same
    exact fresh ⟨row, inside, list_eq, email_eq⟩
  stored := by
    intro row member
    rcases List.mem_append.mp member with there | new
    · exact sound.stored row there
    · obtain rfl := List.mem_singleton.mp new
      exact valid

theorem Table.Sound.filter (sound : table.Sound platform) (keeps : MailingListRecipient → Bool) :
    Table.Sound platform { table with rows := table.rows.filter keeps } where
  names := sound.names.sublist (List.filter_sublist.map _)
  later := fun row member => sound.later row (List.mem_filter.mp member).1
  once := sound.once.sublist (List.filter_sublist.map _)
  stored := fun row member => sound.stored row (List.mem_filter.mp member).1

theorem has_iff : table.Has name email ↔ ∃ enabled, table.Holds name email enabled := by
  constructor
  · rintro ⟨row, there, of, address⟩
    exact ⟨row.enabled, row, there, of, address, rfl⟩
  · rintro ⟨enabled, row, there, of, address, -⟩
    exact ⟨row, there, of, address⟩

theorem Table.Sound.emails_nodup (sound : table.Sound platform) (name : String) :
    ((table.rowsOf name).map (·.email)).Nodup := by
  have rows : ((table.rowsOf name).map fun row => (row.mailingList, row.email)).Nodup :=
    sound.once.sublist (List.filter_sublist.map _)
  have pairs : (table.rowsOf name).map (fun row => (row.mailingList, row.email)) =
      ((table.rowsOf name).map (·.email)).map (name, ·) := by
    rw [List.map_map]
    refine List.map_congr_left fun row member => ?_
    rw [(mem_rowsOf.mp member).2]
    rfl
  rw [pairs] at rows
  exact rows.of_map _

theorem holds_bulkInsert {emails : List String} {other address : String} {flag : Bool} :
    (table.bulkInsert list emails).Holds other address flag ↔
      table.Holds other address flag ∨
        (other = list.email ∧ flag = true ∧ address ∈ emails ∧ ¬ table.Has other address) := by
  induction emails generalizing table with
  | nil => simp [Table.bulkInsert]
  | cons email rest ih =>
    have step : table.bulkInsert list (email :: rest) = Table.bulkInsert
        (if email ∈ (table.rowsOf list.email).map (·.email) then table
          else table.insert list email true) list rest := rfl
    rw [step, ih]
    by_cases there : table.Has list.email email
    · rw [if_pos (mem_emails_rowsOf.mpr there)]
      refine or_congr_right (and_congr_right fun same => and_congr_right fun _ => ?_)
      rw [List.mem_cons]
      refine and_congr_left fun free => (or_iff_right ?_).symm
      rintro rfl
      exact free (same ▸ there)
    · rw [if_neg (mt mem_emails_rowsOf.mp there), holds_insert, has_insert, or_assoc]
      refine or_congr_right ?_
      rw [List.mem_cons]
      by_cases same : address = email
      · subst same
        constructor
        · rintro (⟨rfl, -, rfl⟩ | ⟨of, -, -, free⟩)
          · exact ⟨rfl, rfl, Or.inl rfl, there⟩
          · exact absurd (Or.inr ⟨of, rfl⟩) free
        · rintro ⟨rfl, rfl, -, -⟩
          exact Or.inl ⟨rfl, rfl, rfl⟩
      · simp only [same, and_false, false_and, or_false, false_or]

theorem Table.Sound.bulkInsert (sound : table.Sound platform) {emails : List String}
    (valid : ∀ email ∈ emails, platform.validateEmailAddress email = some email) :
    (table.bulkInsert list emails).Sound platform := by
  induction emails generalizing table with
  | nil => exact sound
  | cons email rest ih =>
    have later : ∀ other ∈ rest, platform.validateEmailAddress other = some other :=
      fun other member => valid other (List.mem_cons_of_mem _ member)
    show Table.Sound platform (Table.bulkInsert
        (if email ∈ (table.rowsOf list.email).map (·.email) then table
          else table.insert list email true) list rest)
    by_cases there : email ∈ (table.rowsOf list.email).map (·.email)
    · rw [if_pos there]
      exact ih sound later
    · rw [if_neg there]
      exact ih (sound.insert (mt mem_emails_rowsOf.mpr there) (valid email List.mem_cons_self)) later

theorem delete_filter (sound : table.Sound platform) (keeps : MailingListRecipient → Bool) :
    table.delete ((table.rows.filter keeps).map (·.name)) =
      { table with rows := table.rows.filter fun row => !keeps row } := by
  rw [Table.delete]
  congr 1
  refine List.filter_congr fun row member => ?_
  have taken : row.name ∈ (table.rows.filter keeps).map (·.name) ↔ keeps row = true := by
    constructor
    · intro there
      obtain ⟨other, inside, same⟩ := List.mem_map.mp there
      obtain ⟨inside, kept⟩ := List.mem_filter.mp inside
      exact List.inj_on_of_nodup_map sound.names inside member same ▸ kept
    · intro kept
      exact List.mem_map_of_mem (List.mem_filter.mpr ⟨member, kept⟩)
  rw [Bool.eq_iff_iff, decide_eq_true_iff, Bool.not_eq_true', ← Bool.not_eq_true]
  exact not_congr taken

theorem holds_filter {keeps : MailingListRecipient → Bool} :
    Table.Holds { table with rows := table.rows.filter keeps } name email enabled ↔
      ∃ row ∈ table.rows, keeps row = true ∧ row.mailingList = name ∧ row.email = email ∧
        row.enabled = enabled := by
  simp only [Table.Holds, List.mem_filter, and_assoc]

end Rows

/-! ### The bulk operations -/

section Bulk

variable {platform : Platform} {table : Table} {list : MailingList} {owner : String → Option String}
variable {emails : List String} {name email : String} {enabled : Bool}

theorem wantedRecipients_eq_some {wanted : List String}
    (passed : wantedRecipients platform list owner emails = some wanted) :
    wanted.Nodup ∧ (∀ address, address ∈ wanted ↔
      ∃ text ∈ emails, platform.validateEmailAddress text = some address) := by
  obtain ⟨mapped, -⟩ := Option.filter_eq_some_iff.mp passed
  obtain ⟨valid, turned, rfl⟩ := Option.map_eq_some_iff.mp mapped
  refine ⟨Dict.nodup_keys_ofList, fun address => ?_⟩
  rw [Dict.mem_keys_ofList, List.map_map, ← mem_of_mapM turned]
  show address ∈ valid.map id ↔ _
  rw [List.map_id]

/-- What `add_recipients` is to add to the table. -/
def candidates (table : Table) (list : MailingList) (wanted : List String) : List String :=
  wanted.filter (· ∉ table.emailsIn list.email wanted)

theorem mem_candidates {wanted : List String} :
    email ∈ candidates table list wanted ↔ email ∈ wanted ∧ ¬ table.Has list.email email := by
  rw [candidates, List.mem_filter, decide_eq_true_iff, mem_emailsIn]
  exact and_congr_right fun there => not_congr (and_iff_left there)

theorem addRecipients_eq {wanted : List String}
    (passed : wantedRecipients platform list owner emails = some wanted) (id : list.stalwartId ≠ none) :
    addRecipients platform list owner table emails true =
      ⟨changing (candidates table list wanted) true,
        some (table.bulkInsert list (candidates table list wanted), candidates table list wanted)⟩ := by
  have present : (candidates table list wanted).filter
      (· ∈ (table.bulkInsert list (candidates table list wanted)).emailsIn list.email
        (candidates table list wanted)) = candidates table list wanted := by
    refine List.filter_eq_self.mpr fun email member => ?_
    rw [decide_eq_true_iff, mem_emailsIn]
    refine ⟨has_iff.mpr ⟨true, holds_bulkInsert.mpr (Or.inr ⟨rfl, rfl, member, ?_⟩)⟩, member⟩
    exact (mem_candidates.mp member).2
  rw [addRecipients, passed, Calls.ofOption_some_bind]
  show ((if true = true then pushRecipientChanges list _ [] else .done ()).bind fun _ => .done _) = _
  rw [if_pos rfl, push_added id, Calls.send_bind_done]
  exact congrArg (fun added => (⟨changing added true, some (_, added)⟩ : Calls Patch (Table × List String)))
    present

/-- The rows `remove_recipients` is to remove. -/
def leaving (list : MailingList) (wanted : List String) (row : MailingListRecipient) : Bool :=
  decide (row.mailingList = list.email) && decide (row.email ∈ wanted)

/-- **`remove_recipients`**, where the texts are addresses: their rows go, and a patch for the enabled
ones. -/
theorem removeRecipients_eq (sound : table.Sound platform) {wanted : List String}
    (turned : emails.mapM platform.validateEmailAddress = some wanted) (id : list.stalwartId ≠ none) :
    removeRecipients platform list table emails =
      ⟨changing (((table.rows.filter (leaving list wanted)).filter (·.enabled)).map (·.email)) false,
        some ({ table with rows := table.rows.filter fun row => !leaving list wanted row },
          (table.rows.filter (leaving list wanted)).map (·.email))⟩ := by
  have rows : (table.rowsOf list.email).filter (·.email ∈ wanted) =
      table.rows.filter (leaving list wanted) := by
    rw [Table.rowsOf, List.filter_filter]
    exact List.filter_congr fun row _ => Bool.and_comm _ _
  rw [removeRecipients, turned, Calls.ofOption_some_bind]
  simp only [rows]
  rw [push_removed id, Calls.send_bind_done, delete_filter sound]

end Bulk

/-! ### What an operation keeps -/

/-- The members are the addresses of the list's enabled rows. -/
def Mirrors (table : Table) (list : String) (members : Finset String) : Prop :=
  ∀ email, email ∈ members ↔ table.Holds list email true

/-- **The patches sent are the difference made** to the list's enabled rows; other lists' rows stay. -/
structure Faithful (platform : Platform) (list : MailingList) (table : Table) (sent : List Patch)
    (left : Table) : Prop where
  sound : left.Sound platform
  others : ∀ {other}, other ≠ list.email → ∀ email enabled,
    left.Holds other email enabled ↔ table.Holds other email enabled
  mirrors : ∀ {members}, Mirrors table list.email members →
    Mirrors left list.email (sent.foldl applyPatch members)

section Operations

variable {platform : Platform} {table left : Table} {list : MailingList}
variable {owner : String → Option String} {emails : List String} {email : String} {enabled : Bool}

theorem Faithful.trans {later : Table} {sent more : List Patch}
    (first : Faithful platform list table sent left) (second : Faithful platform list left more later) :
    Faithful platform list table (sent ++ more) later where
  sound := second.sound
  others := fun other email enabled =>
    (second.others other email enabled).trans (first.others other email enabled)
  mirrors := by
    intro members mirrors
    rw [List.foldl_append]
    exact second.mirrors (first.mirrors mirrors)

/-- A change without a patch, which leaves the enabled rows of the list. -/
theorem Faithful.silent (sound : left.Sound platform)
    (others : ∀ {other}, other ≠ list.email → ∀ email enabled,
      left.Holds other email enabled ↔ table.Holds other email enabled)
    (same : ∀ email, left.Holds list.email email true ↔ table.Holds list.email email true) :
    Faithful platform list table [] left where
  sound := sound
  others := others
  mirrors := fun mirrors email => (mirrors email).trans (same email).symm

theorem Faithful.adding {added : List String} (sound : left.Sound platform)
    (others : ∀ {other}, other ≠ list.email → ∀ email enabled,
      left.Holds other email enabled ↔ table.Holds other email enabled)
    (more : ∀ email, left.Holds list.email email true ↔
      table.Holds list.email email true ∨ email ∈ added) :
    Faithful platform list table (changing added true) left where
  sound := sound
  others := others
  mirrors := by
    intro members mirrors email
    rw [mem_foldl_adds fun patch sent entry member => (mem_changing sent member).2, named_changing,
      more, mirrors]

theorem Faithful.removing {removed : List String} (sound : left.Sound platform)
    (others : ∀ {other}, other ≠ list.email → ∀ email enabled,
      left.Holds other email enabled ↔ table.Holds other email enabled)
    (fewer : ∀ email, left.Holds list.email email true ↔
      table.Holds list.email email true ∧ email ∉ removed) :
    Faithful platform list table (changing removed false) left where
  sound := sound
  others := others
  mirrors := by
    intro members mirrors email
    rw [mem_foldl_removes fun patch sent entry member => (mem_changing sent member).2, named_changing,
      fewer, mirrors]

theorem wanted_stored {wanted : List String}
    (passed : wantedRecipients platform list owner emails = some wanted) (member : email ∈ wanted) :
    platform.validateEmailAddress email = some email := by
  obtain ⟨text, -, stored⟩ := ((wantedRecipients_eq_some passed).2 email).mp member
  exact validateEmailAddress_again stored

theorem addRecipients_faithful (sound : table.Sound platform) (id : list.stalwartId ≠ none)
    {added : Table × List String}
    (ends : (addRecipients platform list owner table emails true).ends = some added) :
    Faithful platform list table (addRecipients platform list owner table emails true).sent added.1 := by
  cases passed : wantedRecipients platform list owner emails with
  | none =>
    rw [addRecipients, passed] at ends
    cases ends
  | some wanted =>
    rw [addRecipients_eq passed id] at ends ⊢
    obtain rfl := Option.some.inj ends
    refine Faithful.adding (sound.bulkInsert fun email member =>
      wanted_stored passed (mem_candidates.mp member).1) ?_ ?_
    · intro other different email enabled
      rw [holds_bulkInsert]
      exact or_iff_left fun new => different new.1
    · intro email
      rw [holds_bulkInsert]
      refine or_congr_right ⟨fun new => new.2.2.1, fun member => ?_⟩
      exact ⟨rfl, rfl, member, (mem_candidates.mp member).2⟩

theorem leaving_iff {wanted : List String} {row : MailingListRecipient} :
    leaving list wanted row = true ↔ row.mailingList = list.email ∧ row.email ∈ wanted := by
  rw [leaving, Bool.and_eq_true, decide_eq_true_iff, decide_eq_true_iff]

theorem holds_left {wanted : List String} {other : String} :
    Table.Holds { table with rows := table.rows.filter fun row => !leaving list wanted row }
        other email enabled ↔
      table.Holds other email enabled ∧ ¬ (other = list.email ∧ email ∈ wanted) := by
  rw [holds_filter]
  constructor
  · rintro ⟨row, there, stays, rfl, rfl, rfl⟩
    rw [Bool.not_eq_true', ← Bool.not_eq_true, leaving_iff] at stays
    exact ⟨⟨row, there, rfl, rfl, rfl⟩, stays⟩
  · rintro ⟨⟨row, there, rfl, rfl, rfl⟩, stays⟩
    refine ⟨row, there, ?_, rfl, rfl, rfl⟩
    rwa [Bool.not_eq_true', ← Bool.not_eq_true, leaving_iff]

theorem mem_removed {wanted : List String} :
    email ∈ ((table.rows.filter (leaving list wanted)).filter (·.enabled)).map (·.email) ↔
      table.Holds list.email email true ∧ email ∈ wanted := by
  rw [List.mem_map]
  constructor
  · rintro ⟨row, member, rfl⟩
    rw [List.mem_filter, List.mem_filter, leaving_iff] at member
    obtain ⟨⟨there, of, wanted⟩, on⟩ := member
    exact ⟨⟨row, there, of, rfl, on⟩, wanted⟩
  · rintro ⟨⟨row, there, of, rfl, on⟩, wanted⟩
    refine ⟨row, ?_, rfl⟩
    rw [List.mem_filter, List.mem_filter, leaving_iff]
    exact ⟨⟨there, of, wanted⟩, on⟩

theorem removeRecipients_faithful (sound : table.Sound platform) (id : list.stalwartId ≠ none)
    {removed : Table × List String}
    (ends : (removeRecipients platform list table emails).ends = some removed) :
    Faithful platform list table (removeRecipients platform list table emails).sent removed.1 := by
  cases turned : emails.mapM platform.validateEmailAddress with
  | none =>
    rw [removeRecipients, turned] at ends
    cases ends
  | some wanted =>
    rw [removeRecipients_eq sound turned id] at ends ⊢
    obtain rfl := Option.some.inj ends
    refine Faithful.removing (sound.filter _) ?_ ?_
    · intro other different email enabled
      rw [holds_left]
      exact and_iff_left fun leaves => different leaves.1
    · intro email
      rw [holds_left, mem_removed]
      refine and_congr_right fun there => not_congr ?_
      exact ⟨fun leaves => ⟨there, leaves.2⟩, fun leaves => ⟨rfl, leaves.2⟩⟩

theorem mem_sorted {texts : List String} : email ∈ sorted texts ↔ email ∈ texts :=
  List.mem_insertionSort _

theorem mem_recipientEmails {name : String} {enabledOnly : Bool} :
    email ∈ recipientEmails table name enabledOnly ↔
      ∃ row ∈ table.rows, row.mailingList = name ∧ row.email = email ∧
        (enabledOnly = true → row.enabled = true) := by
  rw [recipientEmails, mem_sorted, List.mem_map]
  have passes : ∀ row : MailingListRecipient, (!enabledOnly || row.enabled) = true ↔
      (enabledOnly = true → row.enabled = true) := by
    intro row
    cases enabledOnly <;> simp
  constructor
  · rintro ⟨row, member, rfl⟩
    rw [List.mem_filter, mem_rowsOf, passes] at member
    exact ⟨row, member.1.1, member.1.2, rfl, member.2⟩
  · rintro ⟨row, there, of, rfl, on⟩
    refine ⟨row, ?_, rfl⟩
    rw [List.mem_filter, mem_rowsOf, passes]
    exact ⟨⟨there, of⟩, on⟩

theorem mem_current {name : String} :
    email ∈ recipientEmails table name false ↔ table.Has name email := by
  rw [mem_recipientEmails]
  refine exists_congr fun row => and_congr_right fun _ => and_congr_right fun _ => ?_
  exact and_iff_left fun on => absurd on Bool.false_ne_true

theorem mem_sorted_difference {texts others : List String} :
    email ∈ sorted (texts.filter (· ∉ others)).dedup ↔ email ∈ texts ∧ email ∉ others := by
  rw [mem_sorted, List.mem_dedup, List.mem_filter, decide_eq_true_iff]

theorem removed_again (list : MailingList) (sound : table.Sound platform) (wanted : List String) :
    (sorted ((recipientEmails table list.email false).filter (· ∉ wanted)).dedup).mapM
        platform.validateEmailAddress =
      some (sorted ((recipientEmails table list.email false).filter (· ∉ wanted)).dedup) := by
  refine mapM_eq_self fun email member => ?_
  obtain ⟨row, there, -, rfl⟩ := mem_current.mp (mem_sorted_difference.mp member).1
  exact sound.stored row there

theorem setRecipients_parts (owner : String → Option String) {wanted : List String}
    (turned : emails.mapM platform.validateEmailAddress = some wanted) (sound : table.Sound platform)
    (id : list.stalwartId ≠ none) :
    let current := recipientEmails table list.email false
    let removals := removeRecipients platform list table (sorted (current.filter (· ∉ wanted)).dedup)
    ∃ removed, removals.ends = some removed ∧
      setRecipients platform list owner table emails =
        let additions := addRecipients platform list owner removed.1
          (sorted (wanted.filter (· ∉ current)).dedup) true
        ⟨removals.sent ++ additions.sent, additions.ends.map Prod.fst⟩ := by
  intro current removals
  have equation := removeRecipients_eq sound (removed_again list sound wanted) id
  refine ⟨_, congrArg Calls.ends equation, ?_⟩
  rw [setRecipients, turned, Calls.ofOption_some_bind]
  show (removals.bind _) = _
  rw [Calls.bind_of_ends (congrArg Calls.ends equation), Calls.bind_done]

theorem addRecipients_has (id : list.stalwartId ≠ none) {added : Table × List String}
    (ends : (addRecipients platform list owner table emails true).ends = some added) :
    added.1.Has list.email email ↔
      table.Has list.email email ∨ ∃ text ∈ emails, platform.validateEmailAddress text = some email := by
  cases passed : wantedRecipients platform list owner emails with
  | none =>
    rw [addRecipients, passed] at ends
    cases ends
  | some wanted =>
    rw [addRecipients_eq passed id] at ends
    obtain rfl := Option.some.inj ends
    rw [← (wantedRecipients_eq_some passed).2, has_iff]
    simp only [holds_bulkInsert, exists_or]
    rw [← has_iff]
    constructor
    · rintro (there | ⟨-, -, -, new, -⟩)
      · exact Or.inl there
      · exact Or.inr (mem_candidates.mp new).1
    · rintro (there | new)
      · exact Or.inl there
      · by_cases there : table.Has list.email email
        · exact Or.inl there
        · exact Or.inr ⟨true, trivial, rfl, mem_candidates.mpr ⟨new, there⟩, there⟩

theorem removeRecipients_has (sound : table.Sound platform) (id : list.stalwartId ≠ none)
    {wanted : List String} (turned : emails.mapM platform.validateEmailAddress = some wanted)
    {removed : Table × List String}
    (ends : (removeRecipients platform list table emails).ends = some removed) :
    removed.1.Has list.email email ↔ table.Has list.email email ∧ email ∉ wanted := by
  rw [removeRecipients_eq sound turned id] at ends
  obtain rfl := Option.some.inj ends
  rw [has_iff]
  simp only [holds_left, true_and, exists_and_right]
  rw [← has_iff]

theorem setRecipients_faithful (sound : table.Sound platform) (id : list.stalwartId ≠ none)
    (ends : (setRecipients platform list owner table emails).ends = some left) :
    Faithful platform list table (setRecipients platform list owner table emails).sent left ∧
      ∀ email, left.Has list.email email ↔
        ∃ text ∈ emails, platform.validateEmailAddress text = some email := by
  cases turned : emails.mapM platform.validateEmailAddress with
  | none =>
    rw [setRecipients, turned] at ends
    cases ends
  | some wanted =>
    obtain ⟨removed, gone, equation⟩ := setRecipients_parts owner turned sound id
    rw [equation] at ends ⊢
    obtain ⟨added, came, rfl⟩ := Option.map_eq_some_iff.mp ends
    have first := removeRecipients_faithful sound id gone
    have second := addRecipients_faithful first.sound id came
    refine ⟨first.trans second, fun email => ?_⟩
    rw [← mem_of_mapM turned, addRecipients_has id came,
      removeRecipients_has sound id (removed_again list sound wanted) gone]
    simp only [mem_sorted_difference, mem_current]
    constructor
    · rintro (⟨there, kept⟩ | ⟨text, ⟨new, -⟩, stored⟩)
      · by_contra unwanted
        exact kept ⟨there, unwanted⟩
      · obtain ⟨given, -, form⟩ := (mem_of_mapM turned).mp new
        rw [validateEmailAddress_again form] at stored
        exact Option.some.inj stored ▸ new
    · intro new
      by_cases there : table.Has list.email email
      · exact Or.inl ⟨there, fun gone => gone.2 new⟩
      · obtain ⟨given, -, form⟩ := (mem_of_mapM turned).mp new
        exact Or.inr ⟨email, ⟨new, there⟩, validateEmailAddress_again form⟩

theorem Request.calls_faithful (sound : table.Sound platform) (id : list.stalwartId ≠ none)
    {request : Request} (ends : (request.calls platform list owner table).ends = some left) :
    Faithful platform list table (request.calls platform list owner table).sent left := by
  cases request with
  | addRecipients emails =>
    simp only [Request.calls, Calls.bind_done] at ends ⊢
    obtain ⟨added, came, rfl⟩ := Option.map_eq_some_iff.mp ends
    exact addRecipients_faithful sound id came
  | removeRecipients emails =>
    simp only [Request.calls, Calls.bind_done] at ends ⊢
    obtain ⟨removed, gone, rfl⟩ := Option.map_eq_some_iff.mp ends
    exact removeRecipients_faithful sound id gone
  | setRecipients emails => exact (setRecipients_faithful sound id ends).1

theorem check_bind {next : Unit → Calls Patch Table} {passes : Bool}
    (ends : ((Calls.check passes).bind next).ends = some left) :
    passes = true ∧ (Calls.check passes).bind next = next () := by
  cases passes with
  | false => cases ends
  | true => exact ⟨rfl, rfl⟩

theorem insertRecipient_faithful (sound : table.Sound platform) (id : list.stalwartId ≠ none)
    (ends : (insertRecipient platform list owner table email enabled).ends = some left) :
    Faithful platform list table (insertRecipient platform list owner table email enabled).sent left := by
  cases stored : platform.validateEmailAddress email with
  | none =>
    rw [insertRecipient, stored] at ends
    cases ends
  | some address =>
    rw [insertRecipient, stored, Calls.ofOption_some_bind] at ends ⊢
    obtain ⟨passes, rest⟩ := check_bind ends
    rw [rest] at ends ⊢
    rw [Bool.and_eq_true, decide_eq_true_iff, mem_emails_rowsOf] at passes
    have after : (table.insert list address enabled).Sound platform :=
      sound.insert passes.2 (validateEmailAddress_again stored)
    have others : ∀ {other}, other ≠ list.email → ∀ email flag,
        (table.insert list address enabled).Holds other email flag ↔ table.Holds other email flag := by
      intro other different email flag
      rw [holds_insert]
      exact or_iff_left fun new => different new.1
    cases enabled with
    | true =>
      rw [if_pos rfl, push_added id, Calls.send_bind_done] at ends ⊢
      obtain rfl := Option.some.inj ends
      refine Faithful.adding after others fun other => ?_
      rw [holds_insert, List.mem_singleton]
      exact or_congr_right ⟨fun new => new.2.1, fun same => ⟨rfl, same, rfl⟩⟩
    | false =>
      obtain rfl := Option.some.inj ends
      refine Faithful.silent after others fun other => ?_
      rw [holds_insert]
      exact or_iff_left fun new => Bool.noConfusion new.2.2

end Operations

/-! ### Rows by name -/

section ByName

variable {platform : Platform} {table left : Table} {list : MailingList}
variable {owner : String → Option String} {row : MailingListRecipient} {enabled : Bool}

theorem holds_others (sound : table.Sound platform) (there : row ∈ table.rows) {name email : String}
    {flag : Bool} :
    table.Holds name email flag ↔
      (∃ other ∈ table.rows, other.name ≠ row.name ∧ other.mailingList = name ∧ other.email = email ∧
        other.enabled = flag) ∨ (row.mailingList = name ∧ row.email = email ∧ row.enabled = flag) := by
  constructor
  · rintro ⟨other, inside, of, address, on⟩
    by_cases same : other.name = row.name
    · obtain rfl := List.inj_on_of_nodup_map sound.names inside there same
      exact Or.inr ⟨of, address, on⟩
    · exact Or.inl ⟨other, inside, same, of, address, on⟩
  · rintro (⟨other, inside, -, of, address, on⟩ | ⟨of, address, on⟩)
    · exact ⟨other, inside, of, address, on⟩
    · exact ⟨row, there, of, address, on⟩

theorem unique_row (sound : table.Sound platform) (there : row ∈ table.rows)
    {other : MailingListRecipient} (inside : other ∈ table.rows) (of : other.mailingList = row.mailingList)
    (address : other.email = row.email) : other = row :=
  List.inj_on_of_nodup_map sound.once inside there (Prod.ext of address)

theorem other_row (sound : table.Sound platform) (there : row ∈ table.rows) {name email : String}
    {flag : Bool} :
    (∃ other ∈ table.rows, other.name ≠ row.name ∧ other.mailingList = name ∧ other.email = email ∧
        other.enabled = flag) ↔
      table.Holds name email flag ∧ ¬ (row.mailingList = name ∧ row.email = email) := by
  constructor
  · rintro ⟨other, inside, different, of, address, on⟩
    refine ⟨⟨other, inside, of, address, on⟩, fun same => different ?_⟩
    rw [unique_row sound there inside (of.trans same.1.symm) (address.trans same.2.symm)]
  · rintro ⟨⟨other, inside, of, address, on⟩, different⟩
    refine ⟨other, inside, ?_, of, address, on⟩
    intro same
    obtain rfl := List.inj_on_of_nodup_map sound.names inside there same
    exact different ⟨of, address⟩

theorem holds_delete (sound : table.Sound platform) (there : row ∈ table.rows) {name email : String}
    {flag : Bool} :
    (table.delete [row.name]).Holds name email flag ↔
      table.Holds name email flag ∧ ¬ (row.mailingList = name ∧ row.email = email) := by
  rw [← other_row sound there, Table.delete, holds_filter]
  refine exists_congr fun other => and_congr_right fun _ => and_congr_left fun _ => ?_
  rw [decide_eq_true_iff, List.mem_singleton]

theorem deleteRecipient_faithful (sound : table.Sound platform) (id : list.stalwartId ≠ none)
    (there : row ∈ table.rows) (of : row.mailingList = list.email)
    (ends : (deleteRecipient list table row).ends = some left) :
    Faithful platform list table (deleteRecipient list table row).sent left := by
  have others : ∀ {other}, other ≠ list.email → ∀ email flag,
      (table.delete [row.name]).Holds other email flag ↔ table.Holds other email flag := by
    intro other different email flag
    rw [holds_delete sound there]
    exact and_iff_left fun same => different (same.1.symm.trans of)
  cases on : row.enabled with
  | true =>
    rw [deleteRecipient, on, if_pos rfl, push_removed id, Calls.send_bind_done] at ends ⊢
    obtain rfl := Option.some.inj ends
    refine Faithful.removing (sound.filter _) others fun email => ?_
    rw [holds_delete sound there, List.mem_singleton]
    exact and_congr_right fun _ => not_congr
      ⟨fun same => same.2.symm, fun same => ⟨of, same.symm⟩⟩
  | false =>
    rw [deleteRecipient, on, if_neg Bool.false_ne_true, Calls.done_bind] at ends ⊢
    obtain rfl := Option.some.inj ends
    refine Faithful.silent (sound.filter _) others fun email => ?_
    rw [holds_delete sound there]
    refine and_iff_left_of_imp fun enabled same => ?_
    obtain ⟨other, inside, ofOther, address, onOther⟩ := enabled
    rw [unique_row sound there inside (ofOther.trans same.1.symm) (address.trans same.2.symm), on] at onOther
    cases onOther

theorem holds_save (sound : table.Sound platform) (there : row ∈ table.rows) {name email : String}
    {flag : Bool} :
    (table.save list row enabled).Holds name email flag ↔
      (table.Holds name email flag ∧ ¬ (row.mailingList = name ∧ row.email = email)) ∨
        (row.mailingList = name ∧ row.email = email ∧ enabled = flag) := by
  rw [← other_row sound there, Table.Holds, Table.save]
  simp only [List.mem_map, exists_exists_and_eq_and]
  constructor
  · rintro ⟨other, inside, facts⟩
    by_cases same : other.name = row.name
    · obtain rfl := List.inj_on_of_nodup_map sound.names inside there same
      rw [if_pos rfl] at facts
      exact Or.inr facts
    · rw [if_neg same] at facts
      exact Or.inl ⟨other, inside, same, facts⟩
  · rintro (⟨other, inside, different, facts⟩ | facts)
    · exact ⟨other, inside, by rwa [if_neg different]⟩
    · exact ⟨row, there, by rwa [if_pos rfl]⟩

theorem Table.Sound.save (sound : table.Sound platform) :
    (table.save list row enabled).Sound platform := by
  have same : ∀ {β : Type} (field : MailingListRecipient → β),
      (∀ other, field { other with enabled := enabled, tenant := list.tenant } = field other) →
      (table.save list row enabled).rows.map field = table.rows.map field := by
    intro β field kept
    rw [Table.save, List.map_map]
    refine List.map_congr_left fun other _ => ?_
    rw [Function.comp_apply]
    split
    · exact kept other
    · rfl
  have member : ∀ saved ∈ (table.save list row enabled).rows, ∃ other ∈ table.rows,
      saved.name = other.name ∧ saved.email = other.email := by
    intro saved inside
    obtain ⟨other, before, rfl⟩ := List.mem_map.mp inside
    refine ⟨other, before, ?_⟩
    split
    · exact ⟨rfl, rfl⟩
    · exact ⟨rfl, rfl⟩
  refine ⟨?_, ?_, ?_, ?_⟩
  · rw [same _ fun _ => rfl]
    exact sound.names
  · intro saved inside
    obtain ⟨other, inside, name, -⟩ := member saved inside
    rw [name]
    exact sound.later other inside
  · rw [same _ fun _ => rfl]
    exact sound.once
  · intro saved inside
    obtain ⟨other, inside, -, email⟩ := member saved inside
    rw [email]
    exact sound.stored other inside

theorem saveRecipient_faithful (sound : table.Sound platform) (id : list.stalwartId ≠ none)
    (there : row ∈ table.rows) (of : row.mailingList = list.email)
    (ends : (saveRecipient platform list owner table row enabled).ends = some left) :
    Faithful platform list table (saveRecipient platform list owner table row enabled).sent left := by
  rw [saveRecipient, sound.stored row there, Calls.ofOption_some_bind] at ends ⊢
  have rest := (check_bind ends).2
  rw [rest] at ends ⊢
  have after : (table.save list row enabled).Sound platform := sound.save
  have others : ∀ {other}, other ≠ list.email → ∀ email flag,
      (table.save list row enabled).Holds other email flag ↔ table.Holds other email flag := by
    intro other different email flag
    have apart : ¬ row.mailingList = other := fun same => different (same.symm.trans of)
    rw [holds_save sound there]
    simp only [apart, false_and, not_false_eq_true, and_true, or_false]
  have own : ∀ email, table.Holds list.email email true ↔
      (table.Holds list.email email true ∧ ¬ row.email = email) ∨
        (row.email = email ∧ row.enabled = true) := by
    intro email
    rw [holds_others sound there, other_row sound there]
    simp only [of, true_and]
    tauto
  have new : ∀ email, (table.save list row enabled).Holds list.email email true ↔
      (table.Holds list.email email true ∧ ¬ row.email = email) ∨ (row.email = email ∧ enabled = true) := by
    intro email
    rw [holds_save sound there]
    simp only [of, true_and]
  by_cases same : row.enabled = enabled
  · rw [if_pos same, Calls.done_bind] at ends ⊢
    obtain rfl := Option.some.inj ends
    refine Faithful.silent after others fun email => ?_
    rw [new, own, same]
    tauto
  · rw [if_neg same] at ends ⊢
    cases enabled with
    | true =>
      rw [if_pos rfl, push_added id, Calls.send_bind_done] at ends ⊢
      obtain rfl := Option.some.inj ends
      refine Faithful.adding after others fun email => ?_
      have off : row.enabled = false := Bool.eq_false_iff.mpr same
      rw [new, own, off, List.mem_singleton, eq_comm (a := email)]
      tauto
    | false =>
      rw [if_neg Bool.false_ne_true, push_removed id, Calls.send_bind_done] at ends ⊢
      obtain rfl := Option.some.inj ends
      refine Faithful.removing after others fun email => ?_
      rw [new, List.mem_singleton, eq_comm (a := email)]
      simp only [Bool.false_eq_true, and_false, or_false]

end ByName

/-! ### Runs -/

/-- **What holds in every run.** -/
structure Mirrored (platform : Platform) (s : State) : Prop where
  sound : s.table.Sound platform
  own : ∀ {name list}, s.lists name = some list → list.email = name ∧ list.stalwartId ≠ none
  mirrors : ∀ {name list}, s.lists name = some list → Mirrors s.table name (s.recipients name)

section Runs

variable {platform : Platform} {s s' : State} {list : MailingList}

/-- A request whose patches are the difference it makes. -/
theorem Mirrored.commit (holds : Mirrored platform s) {name : String} (here : s.lists name = some list)
    {calls : Calls Patch Table}
    (faithful : ∀ left, calls.ends = some left → Faithful platform list s.table calls.sent left)
    (taken : s.commit list calls = some s') : Mirrored platform s' := by
  obtain ⟨left, ends, rfl⟩ := Option.map_eq_some_iff.mp taken
  have faithful := faithful left ends
  obtain rfl := (holds.own here).1
  refine ⟨faithful.sound, holds.own, ?_⟩
  intro name other there
  show Mirrors left name (Function.update s.recipients list.email _ name)
  by_cases same : name = list.email
  · subst same
    rw [Function.update_self]
    exact faithful.mirrors (holds.mirrors here)
  · rw [Function.update_of_ne same]
    intro email
    rw [faithful.others same]
    exact holds.mirrors there email

theorem Mirrored.create (holds : Mirrored platform s) {email tenant stalwartId : String}
    (taken : s.createMailingList platform email tenant stalwartId = some s') : Mirrored platform s' := by
  obtain ⟨name, -, taken⟩ := Option.bind_eq_some_iff.mp taken
  split at taken
  · cases taken
  · obtain rfl := Option.some.inj taken
    refine ⟨holds.sound, ?_, ?_⟩
    · intro other list there
      rcases update_eq_some there with ⟨rfl, rfl⟩ | ⟨-, before⟩
      · exact ⟨rfl, Option.some_ne_none _⟩
      · exact holds.own before
    · intro other list there
      show Mirrors s.table other (Function.update s.recipients name _ other)
      rcases update_eq_some there with ⟨rfl, -⟩ | ⟨different, before⟩
      · rw [Function.update_self]
        intro email
        rw [List.mem_toFinset, mem_recipientEmails]
        refine exists_congr fun row => and_congr_right fun _ => and_congr_right fun _ =>
          and_congr_right fun _ => ?_
        exact forall_prop_of_true rfl
      · rw [Function.update_of_ne different]
        exact holds.mirrors before

theorem Mirrored.delete (holds : Mirrored platform s) {name : String} (here : s.lists name = some list) :
    Mirrored platform (s.deleteMailingList list) := by
  obtain rfl := (holds.own here).1
  refine ⟨holds.sound.filter _, ?_, ?_⟩
  · intro other there found
    exact holds.own (update_none_eq_some found).2
  · intro other there found email
    obtain ⟨different, before⟩ := update_none_eq_some found
    show email ∈ Function.update s.recipients list.email ∅ other ↔
      Table.Holds { s.table with rows := s.table.rows.filter (·.mailingList ≠ list.email) } other email true
    rw [Function.update_of_ne different, holds.mirrors before, holds_filter]
    refine exists_congr fun row => and_congr_right fun _ => ?_
    rw [decide_eq_true_iff]
    exact ⟨fun facts => ⟨fun same => different (facts.1.symm.trans same), facts⟩, fun facts => facts.2⟩

theorem row_eq_some {name : ℕ} {found : MailingListRecipient × MailingList}
    (here : s.row name = some found) :
    found.1 ∈ s.table.rows ∧ s.lists found.1.mailingList = some found.2 := by
  obtain ⟨row, first, rest⟩ := Option.bind_eq_some_iff.mp here
  obtain ⟨list, there, rfl⟩ := Option.map_eq_some_iff.mp rest
  exact ⟨List.mem_of_find?_eq_some first, there⟩

/-- **Every step keeps the mirror.** -/
theorem Mirrored.step (holds : Mirrored platform s) {action : Action}
    (taken : Lists.step platform s action = some s') : Mirrored platform s' := by
  cases action with
  | createMailingList email tenant stalwartId => exact holds.create taken
  | deleteMailingList name =>
    obtain ⟨list, here, rfl⟩ := Option.map_eq_some_iff.mp taken
    exact holds.delete here
  | request name request =>
    obtain ⟨list, here, taken⟩ := Option.bind_eq_some_iff.mp taken
    exact holds.commit here
      (fun left ends => Request.calls_faithful holds.sound (holds.own here).2 ends) taken
  | insertRecipient name email enabled =>
    obtain ⟨list, here, taken⟩ := Option.bind_eq_some_iff.mp taken
    exact holds.commit here
      (fun left ends => insertRecipient_faithful holds.sound (holds.own here).2 ends) taken
  | saveRecipient row enabled =>
    obtain ⟨found, here, taken⟩ := Option.bind_eq_some_iff.mp taken
    obtain ⟨there, here⟩ := row_eq_some here
    obtain ⟨own, id⟩ := holds.own here
    exact holds.commit here
      (fun left ends => saveRecipient_faithful holds.sound id there own.symm ends) taken
  | deleteRecipient row =>
    obtain ⟨found, here, taken⟩ := Option.bind_eq_some_iff.mp taken
    obtain ⟨there, here⟩ := row_eq_some here
    obtain ⟨own, id⟩ := holds.own here
    exact holds.commit here
      (fun left ends => deleteRecipient_faithful holds.sound id there own.symm ends) taken
  | domains owner =>
    obtain rfl := Option.some.inj taken
    exact ⟨holds.sound, holds.own, holds.mirrors⟩

theorem mirrored_initial (owner : String → Option String) : Mirrored platform (State.initial owner) where
  sound := ⟨List.nodup_nil, fun _ => nofun, List.nodup_nil, fun _ => nofun⟩
  own := nofun
  mirrors := nofun

theorem mirrored_of_reaches {owner : String → Option String}
    (reached : Reaches (Lists.step platform) anyStep (State.initial owner) s) : Mirrored platform s :=
  reached.invariant _ (mirrored_initial owner) fun holds _ taken => holds.step taken

/-- **The cluster's recipients of a list are the addresses of its enabled rows**, no address has two
rows, and `set_recipients` leaves exactly the addresses it is given. -/
theorem recipients_mirrored {owner : String → Option String}
    (reached : Reaches (Lists.step platform) anyStep (State.initial owner) s) {name : String}
    (here : s.lists name = some list) :
    (∀ email, email ∈ s.recipients name ↔
      ∃ row ∈ s.table.rows, row.mailingList = name ∧ row.email = email ∧ row.enabled = true) ∧
    ((s.table.rowsOf name).map (·.email)).Nodup ∧
    ∀ emails s', Lists.step platform s (.request name (.setRecipients emails)) = some s' →
      ∀ email, (∃ row ∈ s'.table.rows, row.mailingList = name ∧ row.email = email) ↔
        ∃ text ∈ emails, platform.validateEmailAddress text = some email := by
  have holds := mirrored_of_reaches reached
  refine ⟨holds.mirrors here, holds.sound.emails_nodup name, ?_⟩
  intro emails s' taken email
  obtain ⟨other, there, taken⟩ := Option.bind_eq_some_iff.mp taken
  obtain rfl := Option.some.inj (here.symm.trans there)
  obtain ⟨left, ends, rfl⟩ := Option.map_eq_some_iff.mp taken
  obtain ⟨own, id⟩ := holds.own here
  subst own
  exact (setRecipients_faithful holds.sound id ends).2 email

end Runs

/-- A list is made, two addresses are added, one of them twice, and one row is disabled. -/
def teamRun : List Action :=
  [.createMailingList "Team@a.io" "t" "1",
    .request "team@a.io" (.addRecipients ["Ann@b.io", "bob@b.io", "ann@b.io"]), .saveRecipient 0 false]

/-- Then the cluster has the other one. -/
theorem recipients_mirrored_team :
    ∃ s list, Reaches (Lists.step asciiPlatform) anyStep (State.initial fun _ => none) s ∧
      s.lists "team@a.io" = some list ∧ s.recipients "team@a.io" = {"bob@b.io"} ∧
      ∀ email, email ∈ s.recipients "team@a.io" ↔ ∃ row ∈ s.table.rows,
        row.mailingList = "team@a.io" ∧ row.email = email ∧ row.enabled = true := by
  have ends : (run (Lists.step asciiPlatform) (State.initial fun _ => none) teamRun).map
      (fun s => (s.lists "team@a.io", s.recipients "team@a.io")) =
        some (some ⟨"team@a.io", "t", some "1"⟩, {"bob@b.io"}) := by decide +kernel
  obtain ⟨s, ran, same⟩ := Option.map_eq_some_iff.mp ends
  obtain ⟨here, members⟩ := Prod.mk.inj same
  have reached := reaches_of_run (runMeets_of_forall fun _ _ _ => trivial) ran
  exact ⟨s, _, reached, here, members, (recipients_mirrored reached here).1⟩

end SuiteCloud.Mail.Lists
