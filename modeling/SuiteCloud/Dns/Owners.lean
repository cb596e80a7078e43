/-
**Several owners and one provider.**

Owners reconcile their DNS Records in turn, each record pushed while it is saved. Two owners may want
one record; each keeps a row of its own and the provider keeps a single record. Is the provider's
record there exactly as long as some owner's row is?

A delete looks at every owner's rows and compares texts; a push looks at the provider's records and
compares them as `normalize_value` reads them. So the values of one place must be told apart by it.

### What is proved

* `reconcile_succeeds`, `reconcile_kept`, `reconcile_unowned`, `reconcile_again` — the rows of one call.
* `Mirrored` — the provider holds one record for each place and value of the rows, and no other one.
* `mirrored_trashAll`, `mirrored_pushAll` — the two loops keep it.
* `managed_records_law` — **the owner's rows become what it wants, and no one else's change; over any
  calls the provider holds one record for each key that some row has.**
* `one_record_for_two_values` — two targets that differ by their last dot.
-/

import SuiteCloud.Dns.Replacement

namespace SuiteCloud.Dns

open SuiteCloud.Library

variable (site : Site)

/-! ### Pushes that run in the save -/

/-- `delete_dns_record` of a value, no delete failing. -/
def deleteDnsRecord (remote : List RemoteRecord) (place : Place) (value : String) : List RemoteRecord :=
  deleteContents remote place (contentsToDelete site remote place value)

/-- `ensure_dns_record`; `none` where it throws. -/
def ensureDnsRecord (remote : List RemoteRecord) (row : Row) : Option (List RemoteRecord) :=
  match findDnsRecord site remote row.place row.value with
  | some record =>
      if record.ttl.getD 0 = row.ttl then some remote
      else if mxAllowed site row.place then
        some (deleteDnsRecord site remote row.place row.value ++ [created site row])
      else none
  | none => if mxAllowed site row.place then some (remote ++ [created site row]) else none

/-- `create_or_update_record_in_dns_provider`. -/
def pushInline (remote : List RemoteRecord) (row : Row) : Option (List RemoteRecord) :=
  if site.hasProvider row.place.dnsZone then ensureDnsRecord site remote row else some remote

/-- **The first loop**: each stale row goes, first at the provider. -/
def trashAll : List Row → List Row → List RemoteRecord → List Row × List RemoteRecord
  | [], rows, remote => (rows, remote)
  | row :: rest, rows, remote =>
      trashAll rest (eraseRow rows row) (deleteContents remote row.place (doomed site rows remote row))

/-- Why a call with its pushes fails. -/
inductive Failed
  | refused (refused : Refused)
  | push (doc : Row)
  deriving DecidableEq

/-- **The second loop**: each row is inserted and pushed. -/
def insertPushAll (owner : Owner) : ℕ → List Row → List RemoteRecord →
    Dict (Place × String) Desired → Except Failed (List Row × List Row × List RemoteRecord)
  | _, rows, remote, [] => .ok (rows, [], remote)
  | name, rows, remote, (_, row) :: rest =>
      match insertRow site owner name rows row with
      | .error refused => .error (.refused refused)
      | .ok doc =>
          match pushInline site remote doc with
          | none => .error (.push doc)
          | some pushed =>
              match insertPushAll owner (name + 1) (rows ++ [doc]) pushed rest with
              | .error failed => .error failed
              | .ok (after, docs, remote) => .ok (after, doc :: docs, remote)

/-- The pushes of the new rows. -/
def pushAll : List Row → List RemoteRecord → Option (List RemoteRecord)
  | [], remote => some remote
  | doc :: rest, remote => (pushInline site remote doc).bind (pushAll rest)

/-- The rows and what the provider holds. -/
structure Managed where
  table : Table
  remote : List RemoteRecord

variable {site} {owner other : Owner}

variable (site) in
/-- A push job that runs by itself. -/
def pushAlone (row : Row) (s : List RemoteRecord × Push) (_ : Unit) : Option (List RemoteRecord × Push) :=
  pushStep site s.1 row s.2

theorem pushAlone_deletes (row : Row) (contents : List (Option String)) (remote : List RemoteRecord) :
    Reaches (pushAlone site row) anyStep (remote, .deleting contents)
      (deleteContents remote row.place contents, .deleting []) := by
  induction contents generalizing remote with
  | nil => exact .start
  | cons content rest ih =>
    exact .trans (.single () trivial rfl) (ih (deleteContent remote row.place content))

theorem pushInline_steps {remote after : List RemoteRecord} {row : Row}
    (pushed : pushInline site remote row = some after) :
    Reaches (pushAlone site row) anyStep (remote, .queued) (after, .finished) := by
  have step {start here there} (before : Reaches (pushAlone site row) anyStep start here)
      (taken : pushAlone site row here () = some there) : Reaches (pushAlone site row) anyStep start there :=
    .next before trivial taken
  by_cases provided : site.hasProvider row.place.dnsZone = true
  · rw [pushInline, if_pos provided, ensureDnsRecord] at pushed
    split at pushed
    · rename_i record found
      split at pushed
      · rename_i same
        obtain rfl := Option.some.inj pushed
        refine .single () trivial ?_
        simp only [pushAlone, pushStep, if_pos provided, found, if_pos same]
      · rename_i differs
        split at pushed
        · rename_i allowed
          obtain rfl := Option.some.inj pushed
          have finds : pushAlone site row (remote, .queued) () = some (remote, .refreshing) := by
            simp only [pushAlone, pushStep, if_pos provided, found, if_neg differs, if_pos allowed]
          have creates : pushAlone site row (deleteDnsRecord site remote row.place row.value, .creating) () =
              some (deleteDnsRecord site remote row.place row.value ++ [created site row], .finished) := by
            simp only [pushAlone, pushStep, if_pos allowed]
          have reads := step (.single () trivial finds) rfl
          have deletes := reads.trans (pushAlone_deletes row _ remote)
          exact step (step deletes rfl) creates
        · cases pushed
    · rename_i absent
      split at pushed
      · rename_i allowed
        obtain rfl := Option.some.inj pushed
        have finds : pushAlone site row (remote, .queued) () = some (remote, .creating) := by
          simp only [pushAlone, pushStep, if_pos provided, absent]
        refine step (.single () trivial finds) ?_
        simp only [pushAlone, pushStep, if_pos allowed]
      · cases pushed
  · rw [pushInline, if_neg provided] at pushed
    obtain rfl := Option.some.inj pushed
    refine .single () trivial ?_
    simp only [pushAlone, pushStep, if_neg provided]

theorem insertPushAll_ok {name : ℕ} {rows after docs : List Row} {remote remote' : List RemoteRecord}
    {wanted : Dict (Place × String) Desired}
    (result : insertPushAll site owner name rows remote wanted = .ok (after, docs, remote')) :
    insertAll site owner name rows wanted = .ok (after, docs) ∧ pushAll site docs remote = some remote' := by
  induction wanted generalizing name rows after docs remote remote' with
  | nil =>
    obtain ⟨rfl, rfl, rfl⟩ : rows = after ∧ [] = docs ∧ remote = remote' := by
      simpa only [Prod.mk.injEq] using Except.ok.inj result
    exact ⟨rfl, rfl⟩
  | cons entry rest ih =>
    simp only [insertPushAll] at result
    split at result
    · cases result
    · rename_i doc inserted
      split at result
      · cases result
      · rename_i pushed here
        split at result
        · cases result
        · rename_i after' docs' later rest'
          obtain ⟨rfl, rfl, rfl⟩ : after' = after ∧ doc :: docs' = docs ∧ later = remote' := by
            simpa only [Prod.mk.injEq] using Except.ok.inj result
          obtain ⟨rows', pushes⟩ := ih rest'
          refine ⟨?_, ?_⟩
          · simp only [insertAll, inserted, rows']
          · rw [pushAll, here]
            exact pushes

theorem trashAll_rows {gone rows : List Row} {remote : List RemoteRecord} :
    (trashAll site gone rows remote).1 = eraseRows rows gone := by
  induction gone generalizing rows remote with
  | nil => rfl
  | cons row rest ih => exact ih

variable (site) in
/-- **`reconcile_managed_records`**, each record pushed while it is saved. -/
def Managed.reconcile (s : Managed) (owner : Owner) (desired : List Desired) : Except Failed Managed :=
  let existing := managedRows s.table.rows owner
  let wanted := wantedRows site desired
  let remaining := (trashAll site (stale existing wanted) s.table.rows s.remote).1
  let trashed := (trashAll site (stale existing wanted) s.table.rows s.remote).2
  have sublist : remaining.Sublist s.table.rows := by
    rw [show remaining = eraseRows _ _ from trashAll_rows]
    exact eraseRows_sublist _ _
  match result : insertPushAll site owner s.table.next remaining trashed (left existing wanted) with
  | .error failed => .error failed
  | .ok (after, docs, remote) => .ok {
      table := {
        rows := after
        next := s.table.next + docs.length
        unique := by
          obtain ⟨rfl, rfl⟩ := insertAll_ok (insertPushAll_ok result).1
          exact unique_append_newDocs (s.table.unique.sublist (sublist.map _))
            fun row member => s.table.named row (sublist.subset member)
        named := by
          obtain ⟨rfl, rfl⟩ := insertAll_ok (insertPushAll_ok result).1
          exact named_append_newDocs fun row member => s.table.named row (sublist.subset member) }
      remote := remote }

/-! ### The rows of a call -/

theorem stale_sublist (existing : List Row) (wanted : Dict (Place × String) Desired) :
    (stale existing wanted).Sublist existing := by
  induction existing generalizing wanted with
  | nil => exact .slnil
  | cons row rest ih =>
    simp only [stale]
    split
    · exact (ih _).cons row
    · exact (ih _).cons_cons row

section Rows

variable {table after : Table} {desired : List Desired}

theorem mem_left_keys {existing : List Row} {wanted : Dict (Place × String) Desired} {key : Place × String}
    (there : key ∈ (left existing wanted).keys) : key ∈ wanted.keys ∧ key ∉ existing.map Row.key := by
  induction existing generalizing wanted with
  | nil => exact ⟨there, List.not_mem_nil⟩
  | cons row rest ih =>
    simp only [left] at there
    split at there
    · obtain ⟨popped, absent⟩ := ih there
      rw [Dict.keys_pop] at popped
      obtain ⟨wantedKey, differs⟩ := List.mem_filter.mp popped
      exact ⟨wantedKey, List.not_mem_cons_of_ne_of_not_mem (of_decide_eq_true differs) absent⟩
    · rename_i unwanted
      obtain ⟨wantedKey, absent⟩ := ih there
      have differs : key ≠ row.key := fun same => unwanted (same ▸ wantedKey)
      exact ⟨wantedKey, List.not_mem_cons_of_ne_of_not_mem differs absent⟩

theorem left_normal (normal : ∀ row ∈ desired, row.Normal) {existing : List Row} :
    ∀ entry ∈ left existing (wantedRows site desired), entry.2.Normal ∧ entry.1 = entry.2.key site := by
  intro entry member
  obtain ⟨there, keyed⟩ := mem_wantedRows (mem_of_mem_left member)
  exact ⟨normal entry.2 there, keyed⟩

/-- **A row whose key was there already is the row it was.** -/
theorem reconcile_kept (done : table.reconcile site owner desired = .ok after)
    (normal : ∀ row ∈ desired, row.Normal) {row : Row} (member : row ∈ managedRows after.rows owner)
    (before : row.key ∈ (managedRows table.rows owner).map Row.key) : row ∈ table.rows := by
  rw [managedRows_reconcile done] at member
  rcases List.mem_append.mp member with stays | new
  · rw [← eraseRows_stale (table.managed_unique owner)] at stays
    exact (List.mem_filter.mp ((eraseRows_sublist _ _).subset stays)).1
  · have keyed := List.mem_map_of_mem (f := Row.key) new
    rw [newDocs_key (left_normal normal)] at keyed
    exact absurd before (mem_left_keys keyed).2

/-- The rows that are not the owner's. -/
def otherRows (rows : List Row) (owner : Owner) : List Row :=
  rows.filter fun row => row.managedBy ≠ some owner

theorem reconcile_unowned (done : table.reconcile site owner desired = .ok after) :
    otherRows after.rows owner = otherRows table.rows owner := by
  have none_new : otherRows (newDocs site owner table.next
      (left (managedRows table.rows owner) (wantedRows site desired))) owner = [] := by
    refine List.filter_eq_nil_iff.mpr fun doc new foreign => ?_
    obtain ⟨entry, -, named, rfl⟩ := mem_newDocs new
    exact of_decide_eq_true foreign rfl
  have commutes : ∀ (gone rows : List Row),
      otherRows (eraseRows rows gone) owner = eraseRows (otherRows rows owner) gone := by
    intro gone
    induction gone with
    | nil => exact fun rows => rfl
    | cons first rest ih =>
      intro rows
      show otherRows (eraseRows (eraseRow rows first) rest) owner =
        eraseRows (eraseRow (otherRows rows owner) first) rest
      rw [ih, otherRows, otherRows, eraseRow, eraseRow, List.filter_filter, List.filter_filter]
      simp only [Bool.and_comm]
  rw [reconcile_rows done, otherRows, List.filter_append]
  show otherRows (eraseRows _ _) owner ++ otherRows (newDocs _ _ _ _) owner = _
  rw [none_new, List.append_nil, commutes]
  refine eraseRows_of_distinct fun row foreign gone going same => ?_
  obtain ⟨there, foreign⟩ := List.mem_filter.mp foreign
  obtain ⟨there', own⟩ := List.mem_filter.mp (mem_of_mem_stale going)
  obtain rfl := List.inj_on_of_nodup_map table.unique there there' same
  exact of_decide_eq_true foreign (of_decide_eq_true own)

theorem settled_of_perm {existing : List Row} {wanted : Dict (Place × String) Desired}
    (distinct : wanted.keys.Nodup) (perm : (existing.map Row.key).Perm wanted.keys) :
    stale existing wanted = [] ∧ left existing wanted = [] := by
  induction existing generalizing wanted with
  | nil => exact ⟨rfl, List.map_eq_nil_iff.mp perm.nil_eq.symm⟩
  | cons row rest ih =>
    have there : row.key ∈ wanted.keys := perm.mem_iff.mp List.mem_cons_self
    have popped : (wanted.pop row.key).keys.Nodup := by
      rw [Dict.keys_pop]
      exact distinct.filter _
    have rest' : (rest.map Row.key).Perm (wanted.pop row.key).keys :=
      (perm.trans (Dict.keys_perm_pop distinct there).symm).cons_inv
    simp only [stale, left, if_pos there]
    exact ih popped rest'

theorem reconcile_settled (done : table.reconcile site owner desired = .ok after)
    (normal : ∀ row ∈ desired, row.Normal) :
    stale (managedRows after.rows owner) (wantedRows site desired) = [] ∧
      left (managedRows after.rows owner) (wantedRows site desired) = [] :=
  settled_of_perm Dict.nodup_keys_ofList (reconcile_perm done normal)

theorem table_eq (rows : after.rows = table.rows) (next : after.next = table.next) : after = table := by
  cases after
  cases table
  cases rows
  cases next
  rfl

theorem reconcile_of_insertAll {rows docs : List Row}
    (inserted : insertAll site owner table.next
      (eraseRows table.rows (stale (managedRows table.rows owner) (wantedRows site desired)))
      (left (managedRows table.rows owner) (wantedRows site desired)) = .ok (rows, docs)) :
    ∃ after, table.reconcile site owner desired = .ok after ∧ after.rows = rows ∧
      after.next = table.next + docs.length := by
  simp only [Table.reconcile]
  split
  · rename_i refused result
    rw [inserted] at result
    cases result
  · rename_i rows' docs' result
    obtain ⟨rfl, rfl⟩ := Prod.mk.inj (Except.ok.inj (inserted.symm.trans result))
    exact ⟨_, rfl, rfl, rfl⟩

theorem reconcile_again (done : table.reconcile site owner desired = .ok after)
    (normal : ∀ row ∈ desired, row.Normal) : after.reconcile site owner desired = .ok after := by
  obtain ⟨stays, settled⟩ := reconcile_settled done normal
  have nothing : insertAll site owner after.next
      (eraseRows after.rows (stale (managedRows after.rows owner) (wantedRows site desired)))
      (left (managedRows after.rows owner) (wantedRows site desired)) = .ok (after.rows, []) := by
    rw [stays, settled]
    rfl
  obtain ⟨again, repeated, rows, next⟩ := reconcile_of_insertAll nothing
  rw [repeated, table_eq rows next]

/-- A wanted row that can be stored: it has a host and a value. -/
def Desired.Filled (site : Site) (row : Desired) : Prop := site.lower row.place.host ≠ "" ∧ row.value ≠ ""

theorem insertRow_returns (name : ℕ) {rows : List Row} {row : Desired} (normal : row.Normal)
    (filled : row.Filled site)
    (fresh : ∀ stored ∈ rows, stored.managedBy = some owner → stored.key ≠ row.key site) :
    insertRow site owner name rows row = .ok (newRow site owner name (zoneOf site row) row) := by
  have zone : zoneOf site row = row.place.dnsZone := if_neg normal.zone
  have zoned : zoneOf site row ≠ "" := zone ▸ normal.zone
  have single : isDuplicate rows (newRow site owner name (zoneOf site row) row) = false := by
    refine List.any_eq_false.mpr fun stored there same => ?_
    obtain ⟨-, place, value, owned⟩ := of_decide_eq_true same
    refine fresh stored there owned ?_
    rw [← newRow_key normal name, Row.key, Row.key, place, value]
  have host : (newRow site owner name (zoneOf site row) row).place.host = site.lower row.place.host := by
    rw [newRow, normal.host]
  have value : (newRow site owner name (zoneOf site row) row).value = row.value := normal.value
  rw [insertRow, if_neg zoned, single, if_neg (by decide), host, value,
    if_neg (not_or.mpr filled)]

theorem insertAll_returns (name : ℕ) {rows : List Row} {wanted : Dict (Place × String) Desired}
    (normal : ∀ entry ∈ wanted, entry.2.Normal ∧ entry.1 = entry.2.key site)
    (filled : ∀ entry ∈ wanted, entry.2.Filled site) (distinct : wanted.keys.Nodup)
    (fresh : ∀ stored ∈ rows, stored.managedBy = some owner → stored.key ∉ wanted.keys) :
    ∃ both, insertAll site owner name rows wanted = .ok both := by
  induction wanted generalizing name rows with
  | nil => exact ⟨_, rfl⟩
  | cons entry rest ih =>
    obtain ⟨⟨first, keyed⟩, normal⟩ := List.forall_mem_cons.mp normal
    obtain ⟨stored, filled⟩ := List.forall_mem_cons.mp filled
    obtain ⟨absent, distinct⟩ := List.nodup_cons.mp distinct
    have inserted := insertRow_returns name first stored fun row there owned same =>
      fresh row there owned (List.mem_cons.mpr (Or.inl (same.trans keyed.symm)))
    have still : ∀ row ∈ rows ++ [newRow site owner name (zoneOf site entry.2) entry.2],
        row.managedBy = some owner → row.key ∉ Dict.keys rest := by
      intro row there owned
      rcases List.mem_append.mp there with before | new
      · exact fun member => fresh row before owned (List.mem_cons_of_mem _ member)
      · obtain rfl := List.mem_singleton.mp new
        rw [newRow_key first, ← keyed]
        exact absent
    obtain ⟨both, later⟩ := ih (name + 1) normal filled distinct still
    refine ⟨(both.1, newRow site owner name (zoneOf site entry.2) entry.2 :: both.2), ?_⟩
    simp only [insertAll, inserted, later]

theorem reconcile_succeeds (normal : ∀ row ∈ desired, row.Normal)
    (filled : ∀ row ∈ desired, row.Filled site) :
    ∃ after, table.reconcile site owner desired = .ok after := by
  have shared : ((kept (managedRows table.rows owner) (wantedRows site desired)).map Row.key ++
      (left (managedRows table.rows owner) (wantedRows site desired)).keys).Nodup :=
    (kept_perm Dict.nodup_keys_ofList).nodup_iff.mpr Dict.nodup_keys_ofList
  have fresh : ∀ row ∈ eraseRows table.rows
        (stale (managedRows table.rows owner) (wantedRows site desired)),
      row.managedBy = some owner →
        row.key ∉ (left (managedRows table.rows owner) (wantedRows site desired)).keys := by
    intro row there owned member
    have own : row ∈ managedRows table.rows owner :=
      List.mem_filter.mpr ⟨(eraseRows_sublist _ _).subset there, decide_eq_true owned⟩
    exact (mem_left_keys member).2 (List.mem_map_of_mem own)
  obtain ⟨⟨rows, docs⟩, inserted⟩ := insertAll_returns table.next (left_normal normal)
    (fun entry member => filled _ (mem_wantedRows (mem_of_mem_left member)).1)
    (List.nodup_append.mp shared).2.1 fresh
  obtain ⟨after, done, -, -⟩ := reconcile_of_insertAll inserted
  exact ⟨after, done⟩

end Rows

/-! ### One record for each key -/

/-- What tells a provider's records apart. -/
def RemoteRecord.entry (record : RemoteRecord) : Place × Option String := (record.place, record.content)

/-- Some row, of any owner, has the value at the place. -/
def Published (rows : List Row) (place : Place) (content : Option String) : Prop :=
  ∃ row ∈ rows, row.place = place ∧ some row.value = content

instance (rows : List Row) (place : Place) (content : Option String) :
    Decidable (Published rows place content) :=
  inferInstanceAs (Decidable (∃ row ∈ rows, row.place = place ∧ some row.value = content))

/-- **The provider holds one record for each place and value of a row**, and no other one. -/
def Mirrored (rows : List Row) (remote : List RemoteRecord) : Prop :=
  ∀ place content, (remote.map RemoteRecord.entry).count (place, content) =
    if Published rows place content then 1 else 0

variable (site) in
/-- `normalize_value` tells the values of each place apart. -/
def Apart (keys : List (Place × String)) : Prop :=
  ∀ key ∈ keys, ∀ other ∈ keys, key.1 = other.1 →
    normalizeValue site (some key.2) = normalizeValue site (some other.2) → key = other

instance (keys : List (Place × String)) : Decidable (Apart site keys) :=
  inferInstanceAs (Decidable (∀ key ∈ keys, ∀ other ∈ keys, key.1 = other.1 →
    normalizeValue site (some key.2) = normalizeValue site (some other.2) → key = other))

/-- A place and value as the row has them. -/
def Row.pair (row : Row) : Place × String := (row.place, row.value)

variable {rows : List Row} {remote after : List RemoteRecord}

theorem mirrored_iff : Mirrored rows remote ↔ (remote.map RemoteRecord.entry).Nodup ∧
    ∀ place content, (place, content) ∈ remote.map RemoteRecord.entry ↔ Published rows place content := by
  constructor
  · intro mirrored
    refine ⟨List.nodup_iff_count_le_one.mpr fun entry => ?_, fun place content => ?_⟩
    · rw [mirrored entry.1 entry.2]
      split
      · exact Nat.le_refl 1
      · exact Nat.zero_le 1
    · rw [← List.count_pos_iff, mirrored place content]
      split
      · rename_i published
        exact ⟨fun _ => published, fun _ => Nat.zero_lt_one⟩
      · rename_i unpublished
        exact iff_of_false (Nat.lt_irrefl 0) unpublished
  · rintro ⟨once, held⟩ place content
    split
    · rename_i published
      exact List.count_eq_one_of_mem once ((held place content).mpr published)
    · rename_i unpublished
      exact List.count_eq_zero.mpr fun there => unpublished ((held place content).mp there)

theorem deleteContents_eq_filter (place : Place) (contents : List (Option String))
    (remote : List RemoteRecord) :
    deleteContents remote place contents =
      remote.filter fun record => ¬ (record.place = place ∧ record.content ∈ contents) := by
  induction contents generalizing remote with
  | nil => simp [deleteContents]
  | cons content rest ih =>
    show deleteContents (deleteContent remote place content) place rest = _
    rw [ih, deleteContent, List.filter_filter]
    refine List.filter_congr fun record _ => ?_
    by_cases here : record.place = place
    · by_cases same : record.content = content
      · simp [here, same]
      · simp [here, same]
    · simp [here]

theorem deleteDnsRecord_eq_filter (place : Place) (value : String) :
    deleteDnsRecord site remote place value =
      remote.filter fun record => ¬ (record.place = place ∧ hasValue site value record) := by
  rw [deleteDnsRecord, deleteContents_eq_filter]
  refine List.filter_congr fun record member => ?_
  by_cases here : record.place = place
  · have listed :
        record.content ∈ contentsToDelete site remote place value ↔ hasValue site value record := by
      refine ⟨fun listed => decide_eq_true (normalizeValue_of_mem_contentsToDelete listed), fun same => ?_⟩
      have read : record ∈ readDnsRecords remote place :=
        List.mem_filter.mpr ⟨member, decide_eq_true here⟩
      exact List.mem_map.mpr ⟨record, List.mem_filter.mpr ⟨read, same⟩, rfl⟩
    simp [here, listed]
  · simp [here]

section Keys

variable {keys : List (Place × String)} {row : Row}

theorem hasValue_iff (apart : Apart site keys) (mirrored : Mirrored rows remote)
    (known : ∀ stored ∈ rows, stored.pair ∈ keys) (listed : row.pair ∈ keys) {record : RemoteRecord}
    (member : record ∈ remote) :
    (record.place = row.place ∧ hasValue site row.value record = true) ↔
      record.entry = (row.place, some row.value) := by
  constructor
  · rintro ⟨here, same⟩
    obtain ⟨stored, there, place, value⟩ := ((mirrored_iff.mp mirrored).2 record.place record.content).mp
      (List.mem_map_of_mem (f := RemoteRecord.entry) member)
    have normal : normalizeValue site (some stored.value) = normalizeValue site (some row.value) := by
      rw [value]
      exact of_decide_eq_true same
    have equal := apart _ (known stored there) _ listed (place.trans here) normal
    rw [RemoteRecord.entry, here, ← value, show stored.value = row.value from congrArg Prod.snd equal]
  · intro same
    obtain ⟨place, content⟩ := Prod.mk.inj same
    refine ⟨place, decide_eq_true ?_⟩
    rw [content]

theorem deleteDnsRecord_entries (apart : Apart site keys) (mirrored : Mirrored rows remote)
    (known : ∀ stored ∈ rows, stored.pair ∈ keys) (listed : row.pair ∈ keys) :
    (deleteDnsRecord site remote row.place row.value).map RemoteRecord.entry =
      (remote.map RemoteRecord.entry).filter fun entry => entry ≠ (row.place, some row.value) := by
  rw [deleteDnsRecord_eq_filter, List.filter_map]
  congr 1
  refine List.filter_congr fun record member => ?_
  simp only [Function.comp_apply, hasValue_iff apart mirrored known listed member, ne_eq]

theorem published_append {place : Place} {content : Option String} :
    Published (rows ++ [row]) place content ↔
      Published rows place content ∨ (place, content) = (row.place, some row.value) := by
  constructor
  · rintro ⟨stored, there, rfl, rfl⟩
    rcases List.mem_append.mp there with before | new
    · exact Or.inl ⟨stored, before, rfl, rfl⟩
    · obtain rfl := List.mem_singleton.mp new
      exact Or.inr rfl
  · rintro (⟨stored, there, same⟩ | same)
    · exact ⟨stored, List.mem_append_left _ there, same⟩
    · obtain ⟨rfl, rfl⟩ := Prod.mk.inj same
      exact ⟨row, List.mem_append_right _ List.mem_cons_self, rfl, rfl⟩

theorem mirrored_append_held (mirrored : Mirrored rows remote)
    (there : (row.place, some row.value) ∈ remote.map RemoteRecord.entry) :
    Mirrored (rows ++ [row]) remote := by
  obtain ⟨once, held⟩ := mirrored_iff.mp mirrored
  refine mirrored_iff.mpr ⟨once, fun place content => ?_⟩
  rw [published_append, held]
  refine ⟨Or.inl, fun either => either.elim id fun same => ?_⟩
  rw [← held, same]
  exact there

theorem mirrored_append_created (mirrored : Mirrored rows remote)
    (same : after.map RemoteRecord.entry = ((remote.map RemoteRecord.entry).filter fun entry =>
      entry ≠ (row.place, some row.value)) ++ [(row.place, some row.value)]) :
    Mirrored (rows ++ [row]) after := by
  obtain ⟨once, held⟩ := mirrored_iff.mp mirrored
  refine mirrored_iff.mpr ⟨?_, fun place content => ?_⟩
  · rw [same]
    refine List.nodup_append.mpr ⟨once.filter _, List.nodup_singleton _, fun entry before other new => ?_⟩
    obtain rfl := List.mem_singleton.mp new
    exact of_decide_eq_true (List.mem_filter.mp before).2
  · rw [same, List.mem_append, List.mem_filter, held, List.mem_singleton, published_append]
    by_cases own : (place, content) = (row.place, some row.value)
    · simp [own]
    · simp [own]

variable (site) in
/-- The provider creates the value it is given, and there is one for every zone. -/
structure Site.Exact : Prop where
  provided : ∀ zone, site.hasProvider zone = true
  stored : ∀ type value, site.stored type value = value

theorem mirrored_push (exact : site.Exact) (apart : Apart site keys) (mirrored : Mirrored rows remote)
    (known : ∀ stored ∈ rows, stored.pair ∈ keys) (listed : row.pair ∈ keys)
    (pushed : pushInline site remote row = some after) : Mirrored (rows ++ [row]) after := by
  have entry : (created site row).entry = (row.place, some row.value) := by
    rw [RemoteRecord.entry, created, exact.stored]
  rw [pushInline, if_pos (exact.provided _), ensureDnsRecord] at pushed
  split at pushed
  · rename_i record found
    have read := List.mem_of_find?_eq_some found
    have member := (List.mem_filter.mp read).1
    have own := (hasValue_iff apart mirrored known listed member).mp
      ⟨of_decide_eq_true (List.mem_filter.mp read).2, List.find?_some found⟩
    split at pushed
    · obtain rfl := Option.some.inj pushed
      exact mirrored_append_held mirrored (own ▸ List.mem_map_of_mem member)
    · split at pushed
      · obtain rfl := Option.some.inj pushed
        refine mirrored_append_created mirrored ?_
        rw [List.map_append, deleteDnsRecord_entries apart mirrored known listed, List.map_singleton, entry]
      · cases pushed
  · rename_i absent
    split at pushed
    · obtain rfl := Option.some.inj pushed
      refine mirrored_append_created mirrored ?_
      rw [List.map_append, List.map_singleton, entry, List.filter_eq_self.mpr]
      intro other there
      obtain ⟨record, member, rfl⟩ := List.mem_map.mp there
      refine decide_eq_true fun same => ?_
      obtain ⟨here, value⟩ := (hasValue_iff apart mirrored known listed member).mpr same
      exact List.find?_eq_none.mp absent record
        (List.mem_filter.mpr ⟨member, decide_eq_true here⟩) value
    · cases pushed

theorem published_eraseRow {place : Place} {content : Option String}
    (other : (place, content) ≠ (row.place, some row.value)) (unique : (rows.map Row.name).Nodup)
    (there : row ∈ rows) : Published (eraseRow rows row) place content ↔ Published rows place content := by
  constructor
  · rintro ⟨stored, stays, same⟩
    exact ⟨stored, (List.mem_filter.mp stays).1, same⟩
  · rintro ⟨stored, before, rfl, rfl⟩
    refine ⟨stored, List.mem_filter.mpr ⟨before, decide_eq_true fun same => other ?_⟩, rfl, rfl⟩
    rw [List.inj_on_of_nodup_map unique before there same]

theorem mirrored_trash (exact : site.Exact) (apart : Apart site keys) (mirrored : Mirrored rows remote)
    (known : ∀ stored ∈ rows, stored.pair ∈ keys) (unique : (rows.map Row.name).Nodup) (there : row ∈ rows) :
    Mirrored (eraseRow rows row) (deleteContents remote row.place (doomed site rows remote row)) := by
  obtain ⟨once, held⟩ := mirrored_iff.mp mirrored
  have wanted : stillWanted rows row = true ↔ Published (eraseRow rows row) row.place (some row.value) := by
    rw [stillWanted, List.any_eq_true]
    constructor
    · rintro ⟨other, before, same⟩
      obtain ⟨differs, place, value⟩ := of_decide_eq_true same
      exact ⟨other, List.mem_filter.mpr ⟨before, decide_eq_true differs⟩, place, congrArg some value⟩
    · rintro ⟨other, stays, place, value⟩
      obtain ⟨before, differs⟩ := List.mem_filter.mp stays
      exact ⟨other, before, decide_eq_true ⟨of_decide_eq_true differs, place, Option.some.inj value⟩⟩
  by_cases still : stillWanted rows row = true
  · rw [doomed, if_pos still]
    refine mirrored_iff.mpr ⟨once, fun place content => ?_⟩
    by_cases own : (place, content) = (row.place, some row.value)
    · obtain ⟨rfl, rfl⟩ := Prod.mk.inj own
      exact iff_of_true ((held _ _).mpr ⟨row, there, rfl, rfl⟩) (wanted.mp still)
    · rw [published_eraseRow own unique there]
      exact held place content
  · have deletes : deleteContents remote row.place (doomed site rows remote row) =
        deleteDnsRecord site remote row.place row.value := by
      rw [doomed, if_neg still, if_pos (exact.provided _), deleteDnsRecord]
    have entries := deleteDnsRecord_entries apart mirrored known (known row there)
    rw [deletes]
    refine mirrored_iff.mpr ⟨?_, fun place content => ?_⟩
    · rw [entries]
      exact once.filter _
    · rw [entries, List.mem_filter, held, decide_eq_true_iff]
      by_cases own : (place, content) = (row.place, some row.value)
      · obtain ⟨rfl, rfl⟩ := Prod.mk.inj own
        exact iff_of_false (fun both => both.2 rfl) (still ∘ wanted.mpr)
      · rw [published_eraseRow own unique there]
        exact and_iff_left own

/-! ### The loops -/

theorem mirrored_trashAll (exact : site.Exact) (apart : Apart site keys) {gone : List Row}
    (mirrored : Mirrored rows remote) (known : ∀ stored ∈ rows, stored.pair ∈ keys)
    (unique : (rows.map Row.name).Nodup) (there : ∀ row ∈ gone, row ∈ rows)
    (distinct : (gone.map Row.name).Nodup) :
    Mirrored (trashAll site gone rows remote).1 (trashAll site gone rows remote).2 := by
  induction gone generalizing rows remote with
  | nil => exact mirrored
  | cons row rest ih =>
    obtain ⟨first, there⟩ := List.forall_mem_cons.mp there
    obtain ⟨fresh, distinct⟩ := List.nodup_cons.mp distinct
    have stays : ∀ stored ∈ eraseRow rows row, stored ∈ rows :=
      fun stored member => (List.mem_filter.mp member).1
    refine ih (mirrored_trash exact apart mirrored known unique first)
      (fun stored member => known stored (stays stored member)) (unique.sublist (List.filter_sublist.map _))
      (fun other member => List.mem_filter.mpr ⟨there other member, decide_eq_true fun same => ?_⟩) distinct
    exact fresh (same ▸ List.mem_map_of_mem member)

theorem mirrored_pushAll (exact : site.Exact) (apart : Apart site keys) {docs : List Row}
    (mirrored : Mirrored rows remote) (known : ∀ stored ∈ rows ++ docs, stored.pair ∈ keys)
    (pushes : pushAll site docs remote = some after) : Mirrored (rows ++ docs) after := by
  induction docs generalizing rows remote with
  | nil =>
    obtain rfl := Option.some.inj pushes
    rw [List.append_nil]
    exact mirrored
  | cons doc rest ih =>
    obtain ⟨pushed, first, pushes⟩ := Option.bind_eq_some_iff.mp pushes
    have split : rows ++ doc :: rest = rows ++ [doc] ++ rest := List.append_cons rows doc rest
    rw [split] at known ⊢
    refine ih (mirrored_push exact apart mirrored ?_ ?_ first) known pushes
    · exact fun stored member =>
        known stored (List.mem_append_left _ (List.mem_append_left _ member))
    · exact known doc (List.mem_append_left _ (List.mem_append_right _ List.mem_cons_self))

end Keys

/-! ### Calls one after the other -/

section Calls

variable {s s' : Managed} {desired : List Desired}

theorem managed_reconcile (done : s.reconcile site owner desired = .ok s') :
    s.table.reconcile site owner desired = .ok s'.table ∧
      pushAll site (newDocs site owner s.table.next
          (left (managedRows s.table.rows owner) (wantedRows site desired)))
        (trashAll site (stale (managedRows s.table.rows owner) (wantedRows site desired))
          s.table.rows s.remote).2 = some s'.remote := by
  simp only [Managed.reconcile] at done
  split at done
  · cases done
  · rename_i rows docs remote result
    obtain rfl := Except.ok.inj done
    obtain ⟨inserted, pushes⟩ := insertPushAll_ok result
    rw [trashAll_rows] at inserted
    obtain ⟨after, same, sameRows, sameNext⟩ := reconcile_of_insertAll inserted
    rw [same]
    refine ⟨congrArg _ (table_eq sameRows sameNext), ?_⟩
    rw [← (insertAll_ok inserted).1]
    exact pushes

theorem managed_again (done : s.reconcile site owner desired = .ok s')
    (normal : ∀ row ∈ desired, row.Normal) : s'.reconcile site owner desired = .ok s' := by
  obtain ⟨stays, settled⟩ := reconcile_settled (managed_reconcile done).1 normal
  have nothing : insertPushAll site owner s'.table.next
      (trashAll site (stale (managedRows s'.table.rows owner) (wantedRows site desired))
        s'.table.rows s'.remote).1
      (trashAll site (stale (managedRows s'.table.rows owner) (wantedRows site desired))
        s'.table.rows s'.remote).2
      (left (managedRows s'.table.rows owner) (wantedRows site desired)) =
        .ok (s'.table.rows, [], s'.remote) := by
    rw [stays, settled]
    rfl
  simp only [Managed.reconcile]
  split
  · rename_i failed result
    rw [nothing] at result
    cases result
  · rename_i rows docs remote result
    obtain ⟨rfl, rfl, rfl⟩ : s'.table.rows = rows ∧ [] = docs ∧ s'.remote = remote := by
      simpa only [Prod.mk.injEq] using Except.ok.inj (nothing.symm.trans result)
    rfl

variable (site) in
/-- A call that returns. -/
def callStep (s : Managed) (call : Owner × List Desired) : Option Managed :=
  (s.reconcile site call.1 call.2).toOption

variable (site) in
/-- **What a call is given**: rows as they are stored, whose values are told apart from one another and
from those of the rows there are. -/
structure ToldApart (s : Managed) (call : Owner × List Desired) : Prop where
  normal : ∀ row ∈ call.2, row.Normal
  apart : Apart site (s.table.rows.map Row.key ++ call.2.map (Desired.key site))

/-- The rows have their values as `validate` leaves them. -/
def Stripped (rows : List Row) : Prop := ∀ row ∈ rows, strip row.value = row.value

theorem pair_eq_key {row : Row} (stripped : strip row.value = row.value) : row.pair = row.key := by
  rw [Row.pair, Row.key, stripped]

theorem stripped_reconcile {table after : Table} (done : table.reconcile site owner desired = .ok after)
    (normal : ∀ row ∈ desired, row.Normal) (stripped : Stripped table.rows) : Stripped after.rows := by
  intro row member
  rw [reconcile_rows done] at member
  rcases List.mem_append.mp member with stays | new
  · exact stripped row ((eraseRows_sublist _ _).subset stays)
  · obtain ⟨entry, there, named, rfl⟩ := mem_newDocs new
    have value : (newRow site owner named (zoneOf site entry.2) entry.2).value = entry.2.value :=
      (left_normal normal entry there).1.value
    rw [value]
    exact (left_normal normal entry there).1.value

theorem mirrored_reconcile (exact : site.Exact) {call : Owner × List Desired}
    (mirrored : Mirrored s.table.rows s.remote) (stripped : Stripped s.table.rows)
    (given : ToldApart site s call) (done : s.reconcile site call.1 call.2 = .ok s') :
    Mirrored s'.table.rows s'.remote := by
  obtain ⟨rowsDone, pushes⟩ := managed_reconcile done
  have sublist : (stale (managedRows s.table.rows call.1) (wantedRows site call.2)).Sublist
      (managedRows s.table.rows call.1) := stale_sublist _ _
  have known : ∀ stored ∈ s.table.rows,
      stored.pair ∈ s.table.rows.map Row.key ++ call.2.map (Desired.key site) := by
    intro stored member
    rw [pair_eq_key (stripped stored member)]
    exact List.mem_append_left _ (List.mem_map_of_mem member)
  have trashed := mirrored_trashAll exact given.apart mirrored known s.table.unique
    (fun row member => (List.mem_filter.mp (sublist.subset member)).1)
    ((s.table.managed_unique call.1).sublist (sublist.map _))
  rw [reconcile_rows rowsDone]
  rw [trashAll_rows] at trashed
  refine mirrored_pushAll exact given.apart trashed (fun stored member => ?_) pushes
  rcases List.mem_append.mp member with stays | new
  · exact known stored ((eraseRows_sublist _ _).subset stays)
  · have after : stored ∈ s'.table.rows := by
      rw [reconcile_rows rowsDone]
      exact List.mem_append_right _ new
    have keyed := List.mem_map_of_mem (f := Row.key) new
    rw [newDocs_key (left_normal given.normal)] at keyed
    rw [pair_eq_key (stripped_reconcile rowsDone given.normal stripped stored after)]
    obtain ⟨row, there, same⟩ := mem_keys_wantedRows.mp (mem_left_keys keyed).1
    exact List.mem_append_right _ (List.mem_map.mpr ⟨row, there, same⟩)

theorem mirrored_calls (exact : site.Exact) {start : Managed}
    (mirrored : Mirrored start.table.rows start.remote) (stripped : Stripped start.table.rows)
    (reached : Reaches (callStep site) (ToldApart site) start s) : Mirrored s.table.rows s.remote := by
  refine (reached.invariant (fun s => Mirrored s.table.rows s.remote ∧ Stripped s.table.rows)
    ⟨mirrored, stripped⟩ ?_).1
  intro here there call both given taken
  have done : here.reconcile site call.1 call.2 = .ok there := by
    rw [callStep] at taken
    cases result : here.reconcile site call.1 call.2 with
    | error failed =>
      rw [result] at taken
      cases taken
    | ok after =>
      rw [result] at taken
      exact congrArg _ (Option.some.inj taken)
  exact ⟨mirrored_reconcile exact both.1 both.2 given done,
    stripped_reconcile (managed_reconcile done).1 given.normal both.2⟩

end Calls

/-- **An owner's rows become what it wants, and no one else's change**: after a call the owner's rows
have the wanted keys, each once, and a row whose key was there is the row it was; a second call changes
nothing. Over any calls of any owners, each record pushed while it is saved, the provider holds one
record for each key some row has and no other one. -/
theorem managed_records_law (site : Site) :
    (∀ (table : Table) (owner : Owner) (desired : List Desired), (∀ row ∈ desired, row.Normal) →
      ((∀ row ∈ desired, row.Filled site) → ∃ after, table.reconcile site owner desired = .ok after) ∧
      ∀ after, table.reconcile site owner desired = .ok after →
        Holds after owner (fun key => ∃ row ∈ desired, row.key site = key) ∧
        (∀ row ∈ managedRows after.rows owner,
          row.key ∈ (managedRows table.rows owner).map Row.key → row ∈ table.rows) ∧
        otherRows after.rows owner = otherRows table.rows owner ∧
        after.reconcile site owner desired = .ok after) ∧
    (site.Exact → ∀ start : Managed, Mirrored start.table.rows start.remote → Stripped start.table.rows →
      ∀ s, Reaches (callStep site) (ToldApart site) start s →
        Mirrored s.table.rows s.remote ∧
        ∀ owner desired s', (∀ row ∈ desired, row.Normal) → s.reconcile site owner desired = .ok s' →
          s.table.reconcile site owner desired = .ok s'.table ∧
          s'.reconcile site owner desired = .ok s') := by
  refine ⟨fun table owner desired normal => ⟨reconcile_succeeds normal, fun after done => ?_⟩, ?_⟩
  · exact ⟨reconcile_holds done normal, fun row => reconcile_kept done normal, reconcile_unowned done,
      reconcile_again done normal⟩
  · intro exact start mirrored stripped s reached
    refine ⟨mirrored_calls exact mirrored stripped reached, fun owner desired s' normal done => ?_⟩
    exact ⟨(managed_reconcile done).1, managed_again done normal⟩

/-! ### One place and two owners -/

instance (row : Desired) : Decidable row.Normal :=
  decidable_of_iff (row.place.dnsZone ≠ "" ∧ strip row.place.host = row.place.host ∧
      strip row.value = row.value)
    ⟨fun ⟨zone, host, value⟩ => ⟨zone, host, value⟩, fun normal => ⟨normal.zone, normal.host, normal.value⟩⟩

instance (s : Managed) (call : Owner × List Desired) : Decidable (ToldApart site s call) :=
  decidable_of_iff ((∀ row ∈ call.2, row.Normal) ∧
      Apart site (s.table.rows.map Row.key ++ call.2.map (Desired.key site)))
    ⟨fun ⟨normal, apart⟩ => ⟨normal, apart⟩, fun given => ⟨given.normal, given.apart⟩⟩

/-- No rows and no records. -/
def noRecords : Managed where
  table := { rows := [], next := 0, unique := List.nodup_nil, named := fun _ member => by cases member }
  remote := []

def mailPlace : Place := ⟨"example.com", "mail", .cname⟩

/-- A CNAME an owner wants. -/
def target (value : String) : Desired := { place := mailPlace, value := value, category := .other }

def clusterOwner : Owner := ⟨"Stalwart Cluster", "c1"⟩

def gatewayOwner : Owner := ⟨"Egress Gateway", "g1"⟩

theorem mirrored_noRecords : Mirrored noRecords.table.rows noRecords.remote := by
  intro place content
  rw [if_neg fun published => by obtain ⟨row, there, -⟩ := published; cases there]
  rfl

theorem oneZone_exact : oneZone.Exact := ⟨fun _ => rfl, fun _ _ => rfl⟩

/-- Two owners want one record, and one of them no longer does. -/
theorem managed_records_law_shared :
    (∃ after, noRecords.table.reconcile oneZone clusterOwner [target "node.example.com"] = .ok after) ∧
    ∃ s, Reaches (callStep oneZone) (ToldApart oneZone) noRecords s ∧
      Mirrored s.table.rows s.remote ∧ s.remote.length = 1 := by
  have returns := ((managed_records_law oneZone).1 noRecords.table clusterOwner [target "node.example.com"]
    (by decide)).1 (by unfold Desired.Filled; decide +kernel)
  have seen : (run (callStep oneZone) noRecords [(clusterOwner, [target "node.example.com"]),
      (gatewayOwner, [target "node.example.com"]), (clusterOwner, [])]).map (fun s => s.remote.length) =
        some 1 := by decide
  obtain ⟨s, ends, one⟩ := Option.map_eq_some_iff.mp seen
  have reached : Reaches (callStep oneZone) (ToldApart oneZone) noRecords s :=
    reaches_of_run (by decide) ends
  exact ⟨returns, s, reached, ((managed_records_law oneZone).2 oneZone_exact noRecords mirrored_noRecords
    (fun row there => by cases there) s reached).1, one⟩

/-- **Two targets that differ by their last dot have one record between them.** -/
theorem one_record_for_two_values :
    ¬ ∀ (site : Site), site.Exact → ∀ start : Managed, Mirrored start.table.rows start.remote →
      Stripped start.table.rows → ∀ s,
        Reaches (callStep site) (fun _ call => ∀ row ∈ call.2, row.Normal) start s →
          Mirrored s.table.rows s.remote := by
  intro always
  have seen : RunMeets (callStep oneZone) (fun _ call => ∀ row ∈ call.2, row.Normal) noRecords
        [(clusterOwner, [target "node.example.com."]), (gatewayOwner, [target "node.example.com"])] ∧
      (run (callStep oneZone) noRecords [(clusterOwner, [target "node.example.com."]),
        (gatewayOwner, [target "node.example.com"])]).map (fun s =>
          ((s.remote.map RemoteRecord.entry).count (mailPlace, some "node.example.com"),
            decide (Published s.table.rows mailPlace (some "node.example.com")))) = some (0, true) := by
    decide +kernel
  obtain ⟨normal, seen⟩ := seen
  obtain ⟨s, ends, shown⟩ := Option.map_eq_some_iff.mp seen
  obtain ⟨count, published⟩ := Prod.mk.inj shown
  have reached : Reaches (callStep oneZone) (fun _ call => ∀ row ∈ call.2, row.Normal) noRecords s :=
    reaches_of_run normal ends
  have one := always oneZone oneZone_exact noRecords mirrored_noRecords (fun row there => by cases there) s
    reached mailPlace (some "node.example.com")
  rw [count, if_pos (of_decide_eq_true published)] at one
  cases one

/-- A host with a blank before it. -/
def blankHost : Desired where
  place := ⟨"example.com", " mail", .cname⟩
  value := "node.example.com"
  category := .other

/-- **A host with a blank is stored without it**, so a second call deletes the row and inserts it anew. -/
theorem blank_host_replaced :
    ¬ ∀ (site : Site) (table after : Table) (owner : Owner) (desired : List Desired),
      (∀ row ∈ desired, strip row.value = row.value) → table.reconcile site owner desired = .ok after →
      after.reconcile site owner desired = .ok after := by
  intro always
  have first : ((noRecords.table.reconcile oneZone clusterOwner [blankHost]).toOption.map fun after =>
      (after.next, (after.reconcile oneZone clusterOwner [blankHost]).toOption.map Table.next)) =
        some (1, some 2) := by decide +kernel
  obtain ⟨after, done, shown⟩ := Option.map_eq_some_iff.mp first
  obtain ⟨next, again⟩ := Prod.mk.inj shown
  have returned : noRecords.table.reconcile oneZone clusterOwner [blankHost] = .ok after := by
    cases result : noRecords.table.reconcile oneZone clusterOwner [blankHost] with
    | error refused =>
      rw [result] at done
      cases done
    | ok table =>
      rw [result] at done
      exact congrArg _ (Option.some.inj done)
  rw [always oneZone _ _ _ _ (by decide +kernel) returned] at again
  have same : after.next = 2 := Option.some.inj again
  omega

end SuiteCloud.Dns
