/-
**What `reconcile_managed_records` leaves.**

The rows of the table after a call that is not refused. What the provider holds meanwhile is another
matter (`Dns.Replacement`).

### What is proved

* `Table.reconcile` — the call on the rows; the names stay unique.
* `reconcile_holds` — **the owner's rows are exactly the wanted ones, each once**: their keys are those
  of the wanted rows.
* `reconcile_others` — no other owner's rows change.
* `reconcile_origin` — a row of the owner was there before, or is one it wants.
-/

import SuiteCloud.Dns.Record

namespace SuiteCloud.Dns

open SuiteCloud.Library

variable {site : Site} {owner other : Owner}

/-! ### The rows that go -/

theorem mem_eraseRows {rows gone : List Row} {row : Row} :
    row ∈ eraseRows rows gone ↔ row ∈ rows ∧ ∀ other ∈ gone, row.name ≠ other.name := by
  induction gone generalizing rows with
  | nil => exact ⟨fun member => ⟨member, List.forall_mem_nil _⟩, And.left⟩
  | cons first rest ih =>
    rw [List.forall_mem_cons, ← and_assoc]
    refine Iff.trans ih (and_congr_left fun _ => ?_)
    rw [eraseRow, List.mem_filter, decide_eq_true_iff]

theorem eraseRows_sublist (rows gone : List Row) : (eraseRows rows gone).Sublist rows := by
  induction gone generalizing rows with
  | nil => exact List.Sublist.refl rows
  | cons first rest ih => exact (ih (eraseRow rows first)).trans List.filter_sublist

theorem eraseRows_cons {rows gone : List Row} {row : Row}
    (named : ∀ other ∈ gone, row.name ≠ other.name) :
    eraseRows (row :: rows) gone = row :: eraseRows rows gone := by
  induction gone generalizing rows with
  | nil => rfl
  | cons first rest ih =>
    obtain ⟨differs, named⟩ := List.forall_mem_cons.mp named
    show eraseRows (eraseRow (row :: rows) first) rest = row :: eraseRows (eraseRow rows first) rest
    rw [eraseRow, List.filter_cons_of_pos (by simp [differs])]
    exact ih named

theorem eraseRows_of_distinct {rows gone : List Row}
    (named : ∀ row ∈ rows, ∀ other ∈ gone, row.name ≠ other.name) : eraseRows rows gone = rows := by
  induction rows with
  | nil => exact List.sublist_nil.mp (eraseRows_sublist [] gone)
  | cons row rest ih =>
    obtain ⟨first, named⟩ := List.forall_mem_cons.mp named
    rw [eraseRows_cons first, ih named]

theorem managedRows_eraseRows (rows gone : List Row) (owner : Owner) :
    managedRows (eraseRows rows gone) owner = eraseRows (managedRows rows owner) gone := by
  induction gone generalizing rows with
  | nil => rfl
  | cons first rest ih =>
    show managedRows (eraseRows (eraseRow rows first) rest) owner =
      eraseRows (eraseRow (managedRows rows owner) first) rest
    rw [ih, managedRows, managedRows, eraseRow, eraseRow, List.filter_filter, List.filter_filter]
    simp only [Bool.and_comm]

theorem mem_of_mem_stale {existing : List Row} {wanted : Dict (Place × String) Desired} {row : Row}
    (member : row ∈ stale existing wanted) : row ∈ existing := by
  induction existing generalizing wanted with
  | nil => exact member
  | cons first rest ih =>
    simp only [stale] at member
    split at member
    · exact List.mem_cons_of_mem _ (ih member)
    · rcases List.mem_cons.mp member with rfl | member
      · exact List.mem_cons_self
      · exact List.mem_cons_of_mem _ (ih member)

/-- The rows the first loop leaves alone. -/
def kept : List Row → Dict (Place × String) Desired → List Row
  | [], _ => []
  | row :: rest, wanted =>
      if row.key ∈ wanted.keys then row :: kept rest (wanted.pop row.key) else kept rest wanted

theorem eraseRows_stale {existing : List Row} {wanted : Dict (Place × String) Desired}
    (unique : (existing.map Row.name).Nodup) :
    eraseRows existing (stale existing wanted) = kept existing wanted := by
  induction existing generalizing wanted with
  | nil => rfl
  | cons row rest ih =>
    obtain ⟨fresh, unique⟩ := List.nodup_cons.mp unique
    have named : ∀ other ∈ rest, row.name ≠ other.name :=
      fun other member same => fresh (same ▸ List.mem_map_of_mem member)
    by_cases there : row.key ∈ wanted.keys
    · simp only [stale, kept, if_pos there]
      rw [eraseRows_cons fun other member => named other (mem_of_mem_stale member), ih unique]
    · simp only [stale, kept, if_neg there]
      show eraseRows (eraseRow (row :: rest) row) (stale rest wanted) = _
      have erased : eraseRow (row :: rest) row = rest := by
        rw [eraseRow, List.filter_cons_of_neg (by simp)]
        exact List.filter_eq_self.mpr fun other member => decide_eq_true (named other member).symm
      rw [erased, ih unique]

theorem kept_perm {existing : List Row} {wanted : Dict (Place × String) Desired}
    (distinct : wanted.keys.Nodup) :
    ((kept existing wanted).map Row.key ++ (left existing wanted).keys).Perm wanted.keys := by
  induction existing generalizing wanted with
  | nil => exact List.Perm.refl _
  | cons row rest ih =>
    by_cases there : row.key ∈ wanted.keys
    · simp only [kept, left, if_pos there, List.map_cons, List.cons_append]
      have popped : (wanted.pop row.key).keys.Nodup := by
        rw [Dict.keys_pop]
        exact distinct.filter _
      exact ((ih popped).cons _).trans (Dict.keys_perm_pop distinct there)
    · simp only [kept, left, if_neg there]
      exact ih distinct

theorem mem_of_mem_left {existing : List Row} {wanted : Dict (Place × String) Desired}
    {entry : (Place × String) × Desired} (member : entry ∈ left existing wanted) : entry ∈ wanted := by
  induction existing generalizing wanted with
  | nil => exact member
  | cons row rest ih =>
    simp only [left] at member
    split at member
    · exact (List.mem_filter.mp (ih member)).1
    · exact ih member

/-! ### The rows that come -/

/-- The documents of the second loop. -/
def newDocs (site : Site) (owner : Owner) : ℕ → Dict (Place × String) Desired → List Row
  | _, [] => []
  | name, (_, row) :: rest =>
      newRow site owner name (zoneOf site row) row :: newDocs site owner (name + 1) rest

theorem insertRow_ok {name : ℕ} {rows : List Row} {row : Desired} {doc : Row}
    (result : insertRow site owner name rows row = .ok doc) :
    doc = newRow site owner name (zoneOf site row) row := by
  simp only [insertRow] at result
  split at result
  · cases result
  · split at result
    · cases result
    · split at result
      · cases result
      · exact (Except.ok.inj result).symm

theorem insertAll_ok {name : ℕ} {rows after docs : List Row} {wanted : Dict (Place × String) Desired}
    (result : insertAll site owner name rows wanted = .ok (after, docs)) :
    docs = newDocs site owner name wanted ∧ after = rows ++ docs := by
  induction wanted generalizing name rows after docs with
  | nil =>
    obtain ⟨rfl, rfl⟩ := Prod.mk.inj (Except.ok.inj result)
    exact ⟨rfl, (List.append_nil _).symm⟩
  | cons entry rest ih =>
    simp only [insertAll] at result
    split at result
    · cases result
    · rename_i doc inserted
      split at result
      · cases result
      · rename_i after' docs' later
        obtain ⟨rfl, rfl⟩ := Prod.mk.inj (Except.ok.inj result)
        obtain ⟨rfl, rfl⟩ := ih later
        obtain rfl := insertRow_ok inserted
        exact ⟨rfl, List.append_assoc _ _ _⟩

theorem newDocs_name {name : ℕ} {wanted : Dict (Place × String) Desired} :
    (newDocs site owner name wanted).map Row.name = List.range' name wanted.length := by
  induction wanted generalizing name with
  | nil => rfl
  | cons entry rest ih =>
    rw [newDocs, List.map_cons, ih, List.length_cons, List.range'_succ]
    rfl

theorem mem_newDocs {name : ℕ} {wanted : Dict (Place × String) Desired} {doc : Row}
    (member : doc ∈ newDocs site owner name wanted) :
    ∃ entry ∈ wanted, ∃ named, doc = newRow site owner named (zoneOf site entry.2) entry.2 := by
  induction wanted generalizing name with
  | nil => cases member
  | cons entry rest ih =>
    rcases List.mem_cons.mp member with rfl | member
    · exact ⟨entry, List.mem_cons_self, name, rfl⟩
    · obtain ⟨found, there, named, same⟩ := ih member
      exact ⟨found, List.mem_cons_of_mem _ there, named, same⟩

theorem managedRows_newDocs {name : ℕ} {wanted : Dict (Place × String) Desired} :
    managedRows (newDocs site owner name wanted) owner = newDocs site owner name wanted := by
  refine List.filter_eq_self.mpr fun doc member => ?_
  obtain ⟨entry, -, named, rfl⟩ := mem_newDocs member
  exact decide_eq_true rfl

theorem managedRows_newDocs_other {name : ℕ} {wanted : Dict (Place × String) Desired}
    (differs : other ≠ owner) : managedRows (newDocs site owner name wanted) other = [] := by
  refine List.filter_eq_nil_iff.mpr fun doc member managed => ?_
  obtain ⟨entry, -, named, rfl⟩ := mem_newDocs member
  exact differs (Option.some.inj (of_decide_eq_true managed)).symm

/-- A wanted row that is stored as it is looked up. -/
structure Desired.Normal (row : Desired) : Prop where
  zone : row.place.dnsZone ≠ ""
  host : strip row.place.host = row.place.host
  value : strip row.value = row.value

theorem newRow_key {row : Desired} (normal : row.Normal) (name : ℕ) :
    (newRow site owner name (zoneOf site row) row).key = row.key site := by
  simp only [Row.key, newRow, zoneOf, if_neg normal.zone, normal.host, normal.value, Desired.key]

theorem newDocs_key {name : ℕ} {wanted : Dict (Place × String) Desired}
    (normal : ∀ entry ∈ wanted, entry.2.Normal ∧ entry.1 = entry.2.key site) :
    (newDocs site owner name wanted).map Row.key = wanted.keys := by
  induction wanted generalizing name with
  | nil => rfl
  | cons entry rest ih =>
    obtain ⟨⟨first, keyed⟩, normal⟩ := List.forall_mem_cons.mp normal
    rw [newDocs, List.map_cons, ih normal, newRow_key first, ← keyed]
    rfl

/-! ### The call -/

section Names

variable {rows : List Row} {next : ℕ} {wanted : Dict (Place × String) Desired}

theorem newDocs_named {doc : Row} (member : doc ∈ newDocs site owner next wanted) :
    next ≤ doc.name ∧ doc.name < next + (newDocs site owner next wanted).length := by
  have listed : doc.name ∈ List.range' next wanted.length :=
    newDocs_name ▸ List.mem_map_of_mem member
  have counted : (newDocs site owner next wanted).length = wanted.length := by
    rw [← List.length_map Row.name, newDocs_name, List.length_range']
  rw [counted]
  exact List.mem_range'_1.mp listed

theorem unique_append_newDocs (unique : (rows.map Row.name).Nodup)
    (named : ∀ row ∈ rows, row.name < next) :
    ((rows ++ newDocs site owner next wanted).map Row.name).Nodup := by
  rw [List.map_append]
  refine List.nodup_append.mpr ⟨unique, ?_, ?_⟩
  · rw [newDocs_name]
    exact List.nodup_range'
  · intro name before name' after
    obtain ⟨row, member, rfl⟩ := List.mem_map.mp before
    obtain ⟨doc, new, rfl⟩ := List.mem_map.mp after
    exact Nat.ne_of_lt (Nat.lt_of_lt_of_le (named row member) (newDocs_named new).1)

theorem named_append_newDocs (named : ∀ row ∈ rows, row.name < next) :
    ∀ row ∈ rows ++ newDocs site owner next wanted,
      row.name < next + (newDocs site owner next wanted).length := by
  intro row member
  rcases List.mem_append.mp member with before | new
  · exact Nat.lt_add_right _ (named row before)
  · exact (newDocs_named new).2

end Names

/-- **`reconcile_managed_records`** on the rows. -/
def Table.reconcile (table : Table) (site : Site) (owner : Owner) (desired : List Desired) :
    Except Refused Table :=
  let remaining :=
    eraseRows table.rows (stale (managedRows table.rows owner) (wantedRows site desired))
  have unique : (remaining.map Row.name).Nodup :=
    table.unique.sublist ((eraseRows_sublist _ _).map _)
  have named : ∀ row ∈ remaining, row.name < table.next :=
    fun row member => table.named row ((eraseRows_sublist _ _).subset member)
  match result : insertAll site owner table.next remaining
      (left (managedRows table.rows owner) (wantedRows site desired)) with
  | .error refused => .error refused
  | .ok (after, docs) => .ok {
      rows := after
      next := table.next + docs.length
      unique := by
        obtain ⟨rfl, rfl⟩ := insertAll_ok result
        exact unique_append_newDocs unique named
      named := by
        obtain ⟨rfl, rfl⟩ := insertAll_ok result
        exact named_append_newDocs named }

section Spec

variable {table after : Table} {desired : List Desired}

theorem reconcile_rows (done : table.reconcile site owner desired = .ok after) :
    after.rows =
      eraseRows table.rows (stale (managedRows table.rows owner) (wantedRows site desired)) ++
      newDocs site owner table.next (left (managedRows table.rows owner) (wantedRows site desired)) := by
  simp only [Table.reconcile] at done
  split at done
  · cases done
  · rename_i rows docs result
    obtain rfl := Except.ok.inj done
    obtain ⟨rfl, rfl⟩ := insertAll_ok result
    rfl

theorem Table.managed_unique (table : Table) (owner : Owner) :
    ((managedRows table.rows owner).map Row.name).Nodup :=
  table.unique.sublist (List.filter_sublist.map _)

theorem managedRows_reconcile (done : table.reconcile site owner desired = .ok after) :
    managedRows after.rows owner = kept (managedRows table.rows owner) (wantedRows site desired) ++
      newDocs site owner table.next (left (managedRows table.rows owner) (wantedRows site desired)) := by
  rw [reconcile_rows done, managedRows, List.filter_append]
  show managedRows (eraseRows _ _) owner ++ managedRows (newDocs _ _ _ _) owner = _
  rw [managedRows_newDocs, managedRows_eraseRows, eraseRows_stale (table.managed_unique owner)]

theorem reconcile_others (done : table.reconcile site owner desired = .ok after)
    (differs : other ≠ owner) : managedRows after.rows other = managedRows table.rows other := by
  rw [reconcile_rows done, managedRows, List.filter_append]
  show managedRows (eraseRows _ _) other ++ managedRows (newDocs _ _ _ _) other = _
  rw [managedRows_newDocs_other differs, List.append_nil, managedRows_eraseRows]
  refine eraseRows_of_distinct ?_
  intro row managed gone going same
  obtain ⟨there, own⟩ := List.mem_filter.mp managed
  obtain ⟨there', own'⟩ := List.mem_filter.mp (mem_of_mem_stale going)
  obtain rfl := List.inj_on_of_nodup_map table.unique there there' same
  exact differs (Option.some.inj ((of_decide_eq_true own).symm.trans (of_decide_eq_true own')))

theorem mem_wantedRows {entry : (Place × String) × Desired} (member : entry ∈ wantedRows site desired) :
    entry.2 ∈ desired ∧ entry.1 = entry.2.key site := by
  obtain ⟨row, there, rfl⟩ := List.mem_map.mp (Dict.mem_of_mem_ofList member)
  exact ⟨there, rfl⟩

theorem reconcile_perm (done : table.reconcile site owner desired = .ok after)
    (normal : ∀ row ∈ desired, row.Normal) :
    ((managedRows after.rows owner).map Row.key).Perm (wantedRows site desired).keys := by
  rw [managedRows_reconcile done, List.map_append, newDocs_key]
  · exact kept_perm Dict.nodup_keys_ofList
  · intro entry member
    obtain ⟨there, keyed⟩ := mem_wantedRows (mem_of_mem_left member)
    exact ⟨normal entry.2 there, keyed⟩

theorem mem_keys_wantedRows {key : Place × String} :
    key ∈ (wantedRows site desired).keys ↔ ∃ row ∈ desired, row.key site = key := by
  rw [wantedRows, Dict.mem_keys_ofList, List.map_map, List.mem_map]
  rfl

theorem reconcile_origin (done : table.reconcile site owner desired = .ok after) {row : Row}
    (member : row ∈ managedRows after.rows owner) :
    row ∈ managedRows table.rows owner ∨
      ∃ wanted ∈ desired, ∃ name, row = newRow site owner name (zoneOf site wanted) wanted := by
  rw [managedRows_reconcile done] at member
  rcases List.mem_append.mp member with stays | new
  · rw [← eraseRows_stale (table.managed_unique owner)] at stays
    exact Or.inl ((eraseRows_sublist _ _).subset stays)
  · obtain ⟨entry, there, named⟩ := mem_newDocs new
    exact Or.inr ⟨entry.2, (mem_wantedRows (mem_of_mem_left there)).1, named⟩

/-- **The owner's rows have the keys that hold of `Wanted`**, each once. -/
structure Holds (table : Table) (owner : Owner) (Wanted : Place × String → Prop) : Prop where
  once : ((managedRows table.rows owner).map Row.key).Nodup
  keys : ∀ key, key ∈ (managedRows table.rows owner).map Row.key ↔ Wanted key

theorem Holds.congr {Wanted Wanted' : Place × String → Prop} (holds : Holds table owner Wanted)
    (rows : managedRows after.rows owner = managedRows table.rows owner)
    (same : ∀ key, Wanted' key ↔ Wanted key) : Holds after owner Wanted' := by
  refine ⟨?_, fun key => ?_⟩
  · rw [rows]
    exact holds.once
  · rw [rows, same]
    exact holds.keys key

theorem reconcile_holds (done : table.reconcile site owner desired = .ok after)
    (normal : ∀ row ∈ desired, row.Normal) :
    Holds after owner fun key => ∃ row ∈ desired, row.key site = key := by
  have perm := reconcile_perm done normal
  refine ⟨perm.nodup_iff.mpr Dict.nodup_keys_ofList, fun key => ?_⟩
  rw [perm.mem_iff, mem_keys_wantedRows]

end Spec

end SuiteCloud.Dns
