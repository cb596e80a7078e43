/-
**A refused recipient change.**

A bulk request sends its patches inside the transaction. Where one of them is refused, or a check fails
after some went out, the database rolls back and the cluster keeps the patches it has accepted.

### What is proved

* `effective` — patches of a list's request are never without effect: each removes a recipient or adds
  one that was not there.
* `Sends.length_sent` — how many patches a request sends.
* `refused_request_iff` — **a failed request leaves the recipients as the rows have them exactly when** it
  sends no patch, or one, with no check left to fail after it.
* `set_recipients_half_done` — a replacement whose additions are refused after the removals went out.
-/

import SuiteCloud.Mail.Lists.Mirror

namespace SuiteCloud.Mail.Lists

open SuiteCloud.Library SuiteCloud.Mail.Tenancy

/-! ### Effects -/

section Effects

variable {members : Finset String} {removed added : List String}

theorem changing_nil (present : Bool) : changing [] present = [] := by
  have none : (changing [] present).length = 0 := by
    rw [length_changing List.nodup_nil]
    rfl
  exact List.length_eq_zero_iff.mp none

theorem mem_foldl_parts {first second : List Patch} {email : String}
    (removes : ∀ patch ∈ first, ∀ entry ∈ patch, entry.2 = false)
    (adds : ∀ patch ∈ second, ∀ entry ∈ patch, entry.2 = true) :
    email ∈ (first ++ second).foldl applyPatch members ↔
      (email ∈ members ∧ email ∉ named first) ∨ email ∈ named second := by
  rw [List.foldl_append, mem_foldl_adds adds, mem_foldl_removes removes]

theorem named_of_take {emails : List String} {present : Bool} {n : ℕ} (some : 0 < n)
    (sent : changing emails present ≠ []) :
    ∃ email, email ∈ named ((changing emails present).take n) ∧ email ∈ emails := by
  obtain ⟨patch, rest, patches⟩ := List.exists_cons_of_ne_nil sent
  have first : patch ∈ changing emails present := patches ▸ List.mem_cons_self
  obtain ⟨entry, others, entries⟩ := List.exists_cons_of_ne_nil (batches_ne_nil patchBatch_pos first)
  have inside : entry ∈ patch := entries ▸ List.mem_cons_self
  refine ⟨entry.1, mem_named.mpr ⟨patch, ?_, List.mem_map_of_mem inside⟩, (mem_changing first inside).1⟩
  obtain ⟨m, rfl⟩ := Nat.exists_eq_succ_of_ne_zero some.ne'
  rw [patches, List.take_succ_cons]
  exact List.mem_cons_self

theorem named_take_subset {emails : List String} {present : Bool} {n : ℕ} {email : String}
    (member : email ∈ named ((changing emails present).take n)) : email ∈ emails := by
  obtain ⟨patch, there, inside⟩ := mem_named.mp member
  obtain ⟨entry, place, rfl⟩ := List.mem_map.mp inside
  exact (mem_changing (List.mem_of_mem_take there) place).1

/-- **No patch is without effect.** -/
theorem effective (gone : ∀ email ∈ removed, email ∈ members) (new : ∀ email ∈ added, email ∉ members)
    {n : ℕ} (some : 0 < n) (sent : changing removed false ++ changing added true ≠ []) :
    ((changing removed false ++ changing added true).take n).foldl applyPatch members ≠ members := by
  intro same
  rw [List.take_append] at same
  have after : ∀ email, email ∈ members ↔
      (email ∈ members ∧ email ∉ named ((changing removed false).take n)) ∨
        email ∈ named ((changing added true).take (n - (changing removed false).length)) := by
    intro email
    rw [← mem_foldl_parts
      (fun patch there entry inside => (mem_changing (List.mem_of_mem_take there) inside).2)
      (fun patch there entry inside => (mem_changing (List.mem_of_mem_take there) inside).2), same]
  by_cases none : changing removed false = []
  · rw [none, List.nil_append] at sent
    obtain ⟨email, there, inside⟩ := named_of_take some sent
    refine new email inside ((after email).mpr (Or.inr ?_))
    rwa [none, List.length_nil, Nat.sub_zero]
  · obtain ⟨email, there, inside⟩ := named_of_take some none
    rcases (after email).mp (gone email inside) with ⟨-, kept⟩ | back
    · exact kept there
    · exact new email (named_take_subset back) (gone email inside)

end Effects

/-! ### What a request sends -/

/-- The patches of these removals and additions, each a change of the recipients. -/
structure Sends (members : Finset String) (sent : List Patch) (removed added : List String) : Prop where
  sent_eq : sent = changing removed false ++ changing added true
  removed_once : removed.Nodup
  added_once : added.Nodup
  gone : ∀ email ∈ removed, email ∈ members
  new : ∀ email ∈ added, email ∉ members

section Sending

variable {members : Finset String} {table : Table} {name : String} {removed added : List String}

theorem mirrors_iff (mirrors : Mirrors table name members) {others : Finset String} :
    Mirrors table name others ↔ others = members := by
  constructor
  · intro also
    ext email
    rw [also, mirrors]
  · rintro rfl
    exact mirrors

/-- **However the request fails**, once the database is rolled back to `table` the recipients are the
enabled rows. -/
def LeavesMirror (table : Table) (name : String) (members : Finset String) (calls : Calls Patch Table) :
    Prop :=
  ∀ n, calls.Stops n → Mirrors table name ((calls.sent.take n).foldl applyPatch members)

theorem leavesMirror_of_raises (mirrors : Mirrors table name members) :
    LeavesMirror table name members ⟨[], none⟩ := by
  intro n _
  rw [List.take_nil]
  exact mirrors

theorem Sends.leavesMirror_iff {calls : Calls Patch Table}
    (sends : Sends members calls.sent removed added) (mirrors : Mirrors table name members) :
    LeavesMirror table name members calls ↔
      calls.sent = [] ∨ (calls.sent.length = 1 ∧ calls.ends ≠ none) := by
  have changes : ∀ n, 0 < n → n ≤ calls.sent.length →
      (calls.sent.take n).foldl applyPatch members ≠ members := by
    intro n some few
    have sent : calls.sent ≠ [] := by
      intro none
      rw [none] at few
      exact absurd (some.trans_le few) (lt_irrefl 0)
    rw [sends.sent_eq] at sent ⊢
    exact effective sends.gone sends.new some sent
  have nothing : ([] : List Patch).foldl applyPatch members = members := rfl
  rw [← Calls.harmless_iff (fun sent => sent.foldl applyPatch members) nothing changes]
  exact forall₂_congr fun n _ => mirrors_iff mirrors

theorem Sends.length_sent {sent : List Patch} (sends : Sends members sent removed added) :
    sent.length = (removed.length + patchBatch - 1) / patchBatch +
      (added.length + patchBatch - 1) / patchBatch := by
  rw [sends.sent_eq, List.length_append, length_changing sends.removed_once,
    length_changing sends.added_once]

theorem Sends.leavesMirror_iff_of_raises {sent : List Patch} (sends : Sends members sent removed added)
    (mirrors : Mirrors table name members) :
    LeavesMirror table name members ⟨sent, none⟩ ↔ removed.length = 0 ∧ added.length = 0 := by
  have length := sends.length_sent
  rw [show patchBatch = 1000 from rfl] at length
  refine (leavesMirror_iff sends mirrors).trans ?_
  rw [← List.length_eq_zero_iff]
  simp only [ne_eq, not_true_eq_false, and_false, or_false]
  omega

theorem Sends.leavesMirror_iff_of_ends {sent : List Patch} (sends : Sends members sent removed added)
    (mirrors : Mirrors table name members) {left : Table} :
    LeavesMirror table name members ⟨sent, some left⟩ ↔
      (removed.length = 0 ∧ added.length ≤ patchBatch) ∨
        (removed.length ≤ patchBatch ∧ added.length = 0) := by
  have length := sends.length_sent
  rw [show patchBatch = 1000 from rfl] at length ⊢
  refine (leavesMirror_iff sends mirrors).trans ?_
  rw [← List.length_eq_zero_iff]
  simp only [ne_eq, reduceCtorEq, not_false_eq_true, and_true]
  omega

end Sending

/-! ### The condition -/

/-- The addresses of `emails` that the list has no row of, each once. -/
def fresh (table : Table) (list : String) (emails : List String) : List String :=
  (emails.filter (· ∉ (table.rowsOf list).map (·.email))).dedup

/-- The enabled rows of the list whose address is to leave. -/
def enabledRows (table : Table) (list : String) (leaves : String → Bool) : List MailingListRecipient :=
  (table.rowsOf list).filter fun row => row.enabled && leaves row.email

/-- The checks `add_recipients` makes of the addresses: none is the list's own, none under a domain of
another tenant. -/
def isAllowed (list : MailingList) (owner : String → Option String) (emails : List String) : Bool :=
  decide (list.email ∉ emails) && assertAddressesDeliverable owner list.tenant emails

/-- **At most one patch, and no check after it.** Where the texts are addresses: an addition has at most
`PATCH_BATCH` new addresses, a removal at most as many enabled rows; a replacement has only one of the
two, and no enabled row leaves where the new addresses are refused. -/
def Request.IsSafe (platform : Platform) (list : MailingList) (owner : String → Option String)
    (table : Table) : Request → Prop
  | .addRecipients emails => ∀ valid, emails.mapM platform.validateEmailAddress = some valid →
      isAllowed list owner valid = true → (fresh table list.email valid).length ≤ patchBatch
  | .removeRecipients emails => ∀ valid, emails.mapM platform.validateEmailAddress = some valid →
      (enabledRows table list.email (· ∈ valid)).length ≤ patchBatch
  | .setRecipients emails => ∀ valid, emails.mapM platform.validateEmailAddress = some valid →
      if isAllowed list owner (fresh table list.email valid) = true then
        ((enabledRows table list.email (· ∉ valid)).length = 0 ∧
          (fresh table list.email valid).length ≤ patchBatch) ∨
        ((enabledRows table list.email (· ∉ valid)).length ≤ patchBatch ∧
          (fresh table list.email valid).length = 0)
      else (enabledRows table list.email (· ∉ valid)).length = 0

section Condition

variable {platform : Platform} {table : Table} {list : MailingList} {owner : String → Option String}
variable {emails valid : List String} {members : Finset String} {email : String}

theorem mem_fresh {name : String} :
    email ∈ fresh table name emails ↔ email ∈ emails ∧ ¬ table.Has name email := by
  rw [fresh, List.mem_dedup, List.mem_filter, decide_eq_true_iff, mem_emails_rowsOf]

theorem isAllowed_congr {others : List String} (same : ∀ email, email ∈ emails ↔ email ∈ others) :
    isAllowed list owner emails = isAllowed list owner others := by
  rw [Bool.eq_iff_iff, isAllowed, isAllowed, Bool.and_eq_true, Bool.and_eq_true, decide_eq_true_iff,
    decide_eq_true_iff, same, assertAddressesDeliverable, assertAddressesDeliverable, List.all_eq_true,
    List.all_eq_true]
  simp only [same]

theorem wantedRecipients_of_mapM (list : MailingList) (owner : String → Option String)
    (turned : emails.mapM platform.validateEmailAddress = some valid) :
    (isAllowed list owner valid = true → ∃ wanted,
      wantedRecipients platform list owner emails = some wanted ∧ ∀ email, email ∈ wanted ↔ email ∈ valid) ∧
    (isAllowed list owner valid = false → wantedRecipients platform list owner emails = none) := by
  have same : ∀ email, email ∈ Dict.keys (Dict.ofList (valid.map (·, ()))) ↔ email ∈ valid := by
    intro email
    rw [Dict.mem_keys_ofList, List.map_map]
    show email ∈ valid.map id ↔ _
    rw [List.map_id]
  have allowed : isAllowed list owner (Dict.keys (Dict.ofList (valid.map (·, ())))) =
      isAllowed list owner valid := isAllowed_congr same
  rw [wantedRecipients, turned, Option.map_some]
  constructor
  · intro passes
    rw [← allowed] at passes
    exact ⟨_, Option.filter_eq_some_iff.mpr ⟨rfl, passes⟩, same⟩
  · intro refused
    rw [← allowed] at refused
    exact Option.filter_eq_none_iff.mpr fun wanted there => by
      obtain rfl := Option.some.inj there
      exact Bool.eq_false_iff.mp refused

theorem candidates_nodup {wanted : List String} (once : wanted.Nodup) :
    (candidates table list wanted).Nodup := once.filter _

theorem sends_additions (mirrors : Mirrors table list.email members) {wanted : List String}
    (once : wanted.Nodup) :
    Sends members (changing (candidates table list wanted) true) [] (candidates table list wanted) where
  sent_eq := by rw [changing_nil, List.nil_append]
  removed_once := List.nodup_nil
  added_once := candidates_nodup once
  gone := nofun
  new := by
    intro email member there
    exact (mem_candidates.mp member).2 (has_iff.mpr ⟨true, (mirrors email).mp there⟩)

theorem removed_rows (wanted : List String) :
    (table.rows.filter (leaving list wanted)).filter (·.enabled) =
      enabledRows table list.email (· ∈ wanted) := by
  rw [enabledRows, Table.rowsOf, List.filter_filter, List.filter_filter]
  refine List.filter_congr fun row _ => ?_
  rw [leaving, Bool.and_left_comm, Bool.and_comm]

theorem sends_removals (sound : table.Sound platform) (mirrors : Mirrors table list.email members)
    (leaves : String → Bool) :
    Sends members (changing ((enabledRows table list.email leaves).map (·.email)) false)
      ((enabledRows table list.email leaves).map (·.email)) [] where
  sent_eq := by rw [changing_nil, List.append_nil]
  removed_once := (sound.emails_nodup list.email).sublist (List.filter_sublist.map _)
  added_once := List.nodup_nil
  gone := by
    intro email member
    obtain ⟨row, inside, rfl⟩ := List.mem_map.mp member
    rw [enabledRows, List.mem_filter, mem_rowsOf, Bool.and_eq_true] at inside
    exact (mirrors row.email).mpr ⟨row, inside.1.1, inside.1.2, rfl, inside.2.1⟩
  new := nofun

theorem length_fresh {added : List String} (once : added.Nodup)
    (same : ∀ email, email ∈ added ↔ email ∈ fresh table list.email valid) :
    added.length = (fresh table list.email valid).length :=
  ((List.perm_ext_iff_of_nodup once (List.nodup_dedup _)).mpr same).length_eq

theorem not_mem_of_fresh (mirrors : Mirrors table list.email members)
    (member : email ∈ fresh table list.email valid) : email ∉ members := fun there =>
  (mem_fresh.mp member).2 (has_iff.mpr ⟨true, (mirrors email).mp there⟩)

theorem addRecipients_cases (table : Table) (owner : String → Option String) (id : list.stalwartId ≠ none)
    (turned : emails.mapM platform.validateEmailAddress = some valid) :
    if isAllowed list owner valid = true then
      ∃ wanted, wanted.Nodup ∧ (∀ email, email ∈ wanted ↔ email ∈ valid) ∧
        addRecipients platform list owner table emails true =
          ⟨changing (candidates table list wanted) true,
            some (table.bulkInsert list (candidates table list wanted), candidates table list wanted)⟩
    else addRecipients platform list owner table emails true = ⟨[], none⟩ := by
  obtain ⟨passes, refuses⟩ := wantedRecipients_of_mapM list owner turned
  split
  · rename_i allowed
    obtain ⟨wanted, passed, same⟩ := passes allowed
    exact ⟨wanted, (wantedRecipients_eq_some passed).1, same, addRecipients_eq passed id⟩
  · rename_i refused
    rw [addRecipients, refuses (Bool.eq_false_iff.mpr refused)]
    rfl

theorem refused_addition_iff (id : list.stalwartId ≠ none) (mirrors : Mirrors table list.email members) :
    LeavesMirror table list.email members
        ((Request.addRecipients emails).calls platform list owner table) ↔
      (Request.addRecipients emails).IsSafe platform list owner table := by
  rw [Request.calls, Calls.bind_done, Request.IsSafe]
  cases turned : emails.mapM platform.validateEmailAddress with
  | none =>
    have raises : addRecipients platform list owner table emails true = ⟨[], none⟩ := by
      rw [addRecipients, wantedRecipients, turned]
      rfl
    rw [raises]
    exact iff_of_true (leavesMirror_of_raises mirrors) fun _ given => absurd given.symm (Option.some_ne_none _)
  | some valid =>
    simp only [Option.some.injEq, forall_eq']
    have calls := addRecipients_cases table owner id turned
    split at calls
    · rename_i allowed
      obtain ⟨wanted, once, same, equation⟩ := calls
      have length : (candidates table list wanted).length = (fresh table list.email valid).length :=
        length_fresh (candidates_nodup once) fun email => by rw [mem_candidates, mem_fresh, same]
      rw [equation, Option.map_some, (sends_additions mirrors once).leavesMirror_iff_of_ends mirrors, length,
        List.length_nil]
      refine Iff.trans ?_ (forall_prop_of_true allowed).symm
      omega
    · rename_i refused
      rw [calls]
      exact iff_of_true (leavesMirror_of_raises mirrors) fun allowed => absurd allowed refused

theorem refused_removal_iff (sound : table.Sound platform) (id : list.stalwartId ≠ none)
    (mirrors : Mirrors table list.email members) :
    LeavesMirror table list.email members
        ((Request.removeRecipients emails).calls platform list owner table) ↔
      (Request.removeRecipients emails).IsSafe platform list owner table := by
  rw [Request.calls, Calls.bind_done, Request.IsSafe]
  cases turned : emails.mapM platform.validateEmailAddress with
  | none =>
    have raises : removeRecipients platform list table emails = ⟨[], none⟩ := by
      rw [removeRecipients, turned]
      rfl
    rw [raises]
    exact iff_of_true (leavesMirror_of_raises mirrors) fun _ given => absurd given.symm (Option.some_ne_none _)
  | some valid =>
    simp only [Option.some.injEq, forall_eq']
    rw [removeRecipients_eq sound turned id, removed_rows, Option.map_some,
      (sends_removals sound mirrors (· ∈ valid)).leavesMirror_iff_of_ends mirrors, List.length_nil,
      List.length_map]
    omega

theorem leaving_rows (table : Table) (valid : List String) :
    enabledRows table list.email
        (· ∈ sorted ((recipientEmails table list.email false).filter (· ∉ valid)).dedup) =
      enabledRows table list.email (· ∉ valid) := by
  refine List.filter_congr fun row member => ?_
  have has : table.Has list.email row.email := mem_emails_rowsOf.mp (List.mem_map_of_mem member)
  congr 1
  rw [decide_eq_decide, mem_sorted_difference, mem_current]
  exact and_iff_right has

theorem added_again (table : Table) (list : MailingList)
    (turned : emails.mapM platform.validateEmailAddress = some valid) :
    (sorted (valid.filter (· ∉ recipientEmails table list.email false)).dedup).mapM
        platform.validateEmailAddress =
      some (sorted (valid.filter (· ∉ recipientEmails table list.email false)).dedup) := by
  refine mapM_eq_self fun email member => ?_
  obtain ⟨text, -, form⟩ := (mem_of_mapM turned).mp (mem_sorted_difference.mp member).1
  exact validateEmailAddress_again form

theorem refused_replacement_iff (sound : table.Sound platform) (id : list.stalwartId ≠ none)
    (mirrors : Mirrors table list.email members) :
    LeavesMirror table list.email members
        ((Request.setRecipients emails).calls platform list owner table) ↔
      (Request.setRecipients emails).IsSafe platform list owner table := by
  rw [Request.calls, Request.IsSafe]
  cases turned : emails.mapM platform.validateEmailAddress with
  | none =>
    have raises : setRecipients platform list owner table emails = ⟨[], none⟩ := by
      rw [setRecipients, turned]
      rfl
    rw [raises]
    exact iff_of_true (leavesMirror_of_raises mirrors) fun _ given => absurd given.symm (Option.some_ne_none _)
  | some valid =>
    simp only [Option.some.injEq, forall_eq']
    obtain ⟨removed, gone, equation⟩ := setRecipients_parts owner turned sound id
    have again := removed_again list sound valid
    have removals := removeRecipients_eq sound again id
    rw [removed_rows, leaving_rows] at removals
    have coming : ∀ email, email ∈ sorted (valid.filter
        (· ∉ recipientEmails table list.email false)).dedup ↔ email ∈ fresh table list.email valid := by
      intro email
      rw [mem_sorted_difference, mem_current, mem_fresh]
    have additions := addRecipients_cases removed.1 owner id (added_again table list turned)
    rw [isAllowed_congr coming] at additions
    rw [equation]
    simp only [removals]
    split at additions
    · rename_i allowed
      obtain ⟨wanted, once, same, calls⟩ := additions
      have added : ∀ email, email ∈ candidates removed.1 list wanted ↔
          email ∈ fresh table list.email valid := by
        intro email
        rw [mem_candidates, same, coming, removeRecipients_has sound id again gone]
        exact and_iff_left_of_imp fun member has => (mem_fresh.mp member).2 has.1
      have sends : Sends members _ _ _ :=
        { sends_removals sound mirrors (· ∉ valid) with
          sent_eq := rfl
          added_once := candidates_nodup once
          new := fun email member => not_mem_of_fresh mirrors ((added email).mp member) }
      rw [if_pos allowed, calls, Option.map_some]
      refine (sends.leavesMirror_iff_of_ends mirrors).trans ?_
      rw [List.length_map, length_fresh (candidates_nodup once) added]
    · rename_i refused
      rw [if_neg refused, additions, Option.map_none, List.append_nil,
        (sends_removals sound mirrors (· ∉ valid)).leavesMirror_iff_of_raises mirrors, List.length_map]
      exact and_iff_left rfl

/-- **A refused recipient change leaves the list as it was exactly when** it has at most one patch to
send and no check left after it. -/
theorem refused_request_iff (sound : table.Sound platform) (id : list.stalwartId ≠ none)
    (mirrors : Mirrors table list.email members) (request : Request) :
    (∀ n, (request.calls platform list owner table).Stops n → Mirrors table list.email
      (((request.calls platform list owner table).sent.take n).foldl applyPatch members)) ↔
      request.IsSafe platform list owner table := by
  cases request with
  | addRecipients emails => exact refused_addition_iff id mirrors
  | removeRecipients emails => exact refused_removal_iff sound id mirrors
  | setRecipients emails => exact refused_replacement_iff sound id mirrors

end Condition

/-! ### A list of one recipient -/

/-- The list. -/
def team : MailingList := ⟨"team@a.io", "t", some "1"⟩

/-- Its one row. -/
def oneRow : Table := ⟨[⟨0, "team@a.io", "ann@b.io", true, "t"⟩], 1⟩

/-- Another tenant holds `c.io`. -/
def foreignDomain : String → Option String := fun domain => if domain = "c.io" then some "u" else none

theorem oneRow_mirrors : Mirrors oneRow team.email {"ann@b.io"} := by
  intro email
  rw [Finset.mem_singleton]
  constructor
  · rintro rfl
    exact ⟨_, List.mem_cons_self, rfl, rfl, rfl⟩
  · rintro ⟨row, there, -, rfl, -⟩
    obtain rfl := List.mem_singleton.mp there
    rfl

/-- An addition of one address leaves the list as it was, however it fails. -/
theorem refused_request_iff_oneRow :
    oneRow.Sound asciiPlatform ∧ team.stalwartId ≠ none ∧ Mirrors oneRow team.email {"ann@b.io"} ∧
    ∀ n, ((Request.addRecipients ["bob@b.io"]).calls asciiPlatform team foreignDomain oneRow).Stops n →
      Mirrors oneRow team.email ((((Request.addRecipients ["bob@b.io"]).calls asciiPlatform team
        foreignDomain oneRow).sent.take n).foldl applyPatch {"ann@b.io"}) := by
  have sound : oneRow.Sound asciiPlatform :=
    ⟨by decide, by decide, by decide, by decide⟩
  have id : team.stalwartId ≠ none := by decide
  refine ⟨sound, id, oneRow_mirrors, (refused_request_iff sound id oneRow_mirrors _).mpr ?_⟩
  intro valid turned _
  have form : ["bob@b.io"].mapM asciiPlatform.validateEmailAddress = some ["bob@b.io"] := by decide
  obtain rfl := Option.some.inj (form.symm.trans turned)
  decide

/-- **A replacement half done**: the removal is accepted, and then the new address is refused. -/
theorem set_recipients_half_done :
    Mirrors oneRow team.email {"ann@b.io"} ∧
    ∃ n, ((Request.setRecipients ["bob@c.io"]).calls asciiPlatform team foreignDomain oneRow).Stops n ∧
      ¬ Mirrors oneRow team.email ((((Request.setRecipients ["bob@c.io"]).calls asciiPlatform team
        foreignDomain oneRow).sent.take n).foldl applyPatch {"ann@b.io"}) := by
  refine ⟨oneRow_mirrors, 1, Or.inr (by decide), fun mirrors => ?_⟩
  have gone : "ann@b.io" ∉ ((((Request.setRecipients ["bob@c.io"]).calls asciiPlatform team
      foreignDomain oneRow).sent.take 1).foldl applyPatch {"ann@b.io"}) := by decide
  exact gone ((mirrors "ann@b.io").mpr ⟨_, List.mem_cons_self, rfl, rfl, rfl⟩)

end SuiteCloud.Mail.Lists
