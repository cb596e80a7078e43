/-
**Tables with a primary key.**

The rows of a table in some order, no two with the same key: the table carries the proof.

* `get` — the row of a key; `insert`, `put`, `save`, `erase`, `mapRows` — the writes.
* `get_eq_some`, `mem_insert`, `mem_put`, `mem_save`, `mem_erase`, `mem_mapRows` — the rows after each.
* `get_insert`, `get_put`, `get_save`, `get_erase` — the row of a key after them.
-/

import Mathlib.Data.List.Nodup

set_option linter.unusedSectionVars false

namespace SuiteCloud.Library

/-- Rows, each with a key of its own. -/
structure Keyed (K V : Type*) (key : V → K) where
  rows : List V
  unique : (rows.map key).Nodup

namespace Keyed

variable {K V : Type*} [DecidableEq K] {key : V → K}

instance : Membership V (Keyed K V key) where
  mem table row := row ∈ table.rows

instance : EmptyCollection (Keyed K V key) where
  emptyCollection := ⟨[], List.nodup_nil⟩

/-- The row of a key. -/
def get (table : Keyed K V key) (k : K) : Option V := table.rows.find? fun row => key row = k

/-- An insert, which raises where the key is taken. -/
def insert (table : Keyed K V key) (row : V) : Option (Keyed K V key) :=
  if fresh : key row ∈ table.rows.map key then none
  else some ⟨row :: table.rows, List.nodup_cons.mpr ⟨fresh, table.unique⟩⟩

/-- The rows, each changed under its key. -/
def mapRows (table : Keyed K V key) (change : V → V) (kept : ∀ row, key (change row) = key row) :
    Keyed K V key where
  rows := table.rows.map change
  unique := by
    rw [List.map_map, show key ∘ change = key from funext kept]
    exact table.unique

/-- The row of a key, written over. -/
def put (table : Keyed K V key) (row : V) : Keyed K V key :=
  table.mapRows (fun other => if key other = key row then row else other) (by
    intro other
    split
    · rename_i same
      exact same.symm
    · rfl)

/-- A row saved: inserted, or written over the one of its key. -/
def save (table : Keyed K V key) (row : V) : Keyed K V key := (table.insert row).getD (table.put row)

/-- The table without the row of a key. -/
def erase (table : Keyed K V key) (k : K) : Keyed K V key where
  rows := table.rows.filter fun row => key row ≠ k
  unique := table.unique.sublist (List.filter_sublist.map _)

variable {table : Keyed K V key} {row other : V} {k : K}

theorem eq_of_key (here : row ∈ table) (there : other ∈ table) (same : key row = key other) :
    row = other := List.inj_on_of_nodup_map table.unique here there same

/-- **The row of a key** is the one that has it. -/
theorem get_eq_some : table.get k = some row ↔ row ∈ table ∧ key row = k := by
  constructor
  · intro found
    have same := List.find?_some (p := fun other => decide (key other = k)) found
    exact ⟨List.mem_of_find?_eq_some found, decide_eq_true_iff.mp same⟩
  · rintro ⟨here, rfl⟩
    cases found : table.get (key row) with
    | none =>
      have absent := List.find?_eq_none.mp found row here
      exact absurd (decide_eq_true rfl) absent
    | some first =>
      have same := List.find?_some (p := fun other => decide (key other = key row)) found
      rw [eq_of_key (List.mem_of_find?_eq_some found) here (decide_eq_true_iff.mp same)]

theorem get_eq_none : table.get k = none ↔ ∀ row ∈ table, key row ≠ k := by
  rw [get, List.find?_eq_none]
  exact forall₂_congr fun row _ => not_congr decide_eq_true_iff

theorem mem_insert {left : Keyed K V key} (done : table.insert row = some left) :
    (∀ other ∈ table, key other ≠ key row) ∧ ∀ other, other ∈ left ↔ other = row ∨ other ∈ table := by
  rw [insert] at done
  split at done
  · cases done
  · rename_i fresh
    obtain rfl := Option.some.inj done
    refine ⟨fun other there same => fresh ?_, fun other => List.mem_cons⟩
    rw [← same]
    exact List.mem_map_of_mem there

theorem mem_mapRows {change : V → V} {kept : ∀ row, key (change row) = key row} :
    other ∈ table.mapRows change kept ↔ ∃ row ∈ table, change row = other := List.mem_map

theorem mem_put {before : V} (here : before ∈ table) (same : key before = key row) :
    other ∈ table.put row ↔ other = row ∨ (other ∈ table ∧ key other ≠ key row) := by
  rw [put, mem_mapRows]
  constructor
  · rintro ⟨first, there, rfl⟩
    by_cases equal : key first = key row
    · rw [if_pos equal]
      exact Or.inl rfl
    · rw [if_neg equal]
      exact Or.inr ⟨there, equal⟩
  · rintro (rfl | ⟨there, different⟩)
    · exact ⟨before, here, if_pos same⟩
    · exact ⟨other, there, if_neg different⟩

theorem mem_save : other ∈ table.save row ↔ other = row ∨ (other ∈ table ∧ key other ≠ key row) := by
  unfold save
  cases done : table.insert row with
  | some left =>
    obtain ⟨fresh, members⟩ := mem_insert done
    rw [Option.getD_some, members other]
    exact or_congr_right ⟨fun there => ⟨there, fresh other there⟩, And.left⟩
  | none =>
    rw [insert] at done
    split at done
    · rename_i taken
      obtain ⟨before, here, same⟩ := List.mem_map.mp taken
      exact mem_put here same
    · cases done

theorem mem_erase : other ∈ table.erase k ↔ other ∈ table ∧ key other ≠ k := by
  show other ∈ table.rows.filter _ ↔ _
  rw [List.mem_filter, decide_eq_true_iff]
  rfl

/-- A key has the same row in two tables that agree on its rows. -/
theorem get_congr {changed : Keyed K V key}
    (same : ∀ row, key row = k → (row ∈ changed ↔ row ∈ table)) : changed.get k = table.get k := by
  refine Option.ext fun row => ?_
  rw [get_eq_some, get_eq_some]
  exact ⟨fun found => ⟨(same row found.2).mp found.1, found.2⟩,
    fun found => ⟨(same row found.2).mpr found.1, found.2⟩⟩

theorem get_insert {left : Keyed K V key} (done : table.insert row = some left) :
    left.get k = if k = key row then some row else table.get k := by
  obtain ⟨-, members⟩ := mem_insert done
  split
  · next same => exact get_eq_some.mpr ⟨(members row).mpr (.inl rfl), same.symm⟩
  · next different =>
    refine get_congr fun other named => (members other).trans (or_iff_right ?_)
    rintro rfl
    exact different named.symm

theorem get_put {before : V} (found : table.get (key row) = some before) :
    (table.put row).get k = if k = key row then some row else table.get k := by
  obtain ⟨here, same⟩ := get_eq_some.mp found
  split
  · next same' => exact get_eq_some.mpr ⟨(mem_put here same).mpr (.inl rfl), same'.symm⟩
  · next different =>
    refine get_congr fun other named => (mem_put here same).trans ⟨?_, ?_⟩
    · rintro (rfl | ⟨there, -⟩)
      · exact absurd named.symm different
      · exact there
    · intro there
      exact .inr ⟨there, fun equal => different (named.symm.trans equal)⟩

theorem get_save : (table.save row).get k = if k = key row then some row else table.get k := by
  split
  · next same => exact get_eq_some.mpr ⟨mem_save.mpr (.inl rfl), same.symm⟩
  · next different =>
    refine get_congr fun other named => mem_save.trans ⟨?_, ?_⟩
    · rintro (rfl | ⟨there, -⟩)
      · exact absurd named.symm different
      · exact there
    · intro there
      exact .inr ⟨there, fun equal => different (named.symm.trans equal)⟩

theorem get_erase {erased : K} : (table.erase erased).get k =
    if k = erased then none else table.get k := by
  split
  · next same =>
    subst same
    exact get_eq_none.mpr fun row there => (mem_erase.mp there).2
  · next different =>
    refine get_congr fun other named => mem_erase.trans (and_iff_left ?_)
    rw [named]
    exact different

/-- A row saved leaves the rows of other keys in their order. -/
theorem filter_save {keeps : K → Bool} (fresh : keeps (key row) = false) :
    ((table.save row).rows.filter fun other => keeps (key other)) =
      table.rows.filter fun other => keeps (key other) := by
  unfold save insert
  split
  · show (table.rows.map _).filter _ = _
    induction table.rows with
    | nil => rfl
    | cons first rest ih =>
      rw [List.map_cons, List.filter_cons, List.filter_cons, ih]
      by_cases same : key first = key row
      · rw [if_pos same, same, fresh]
        rfl
      · rw [if_neg same]
  · show (row :: table.rows).filter _ = _
    rw [List.filter_cons, fresh]
    rfl

end Keyed

end SuiteCloud.Library
