/-
**Joins and groups over bags of rows.**

A bag of rows is a list; two rows join where their keys are equal. Where no two rows of the right side
share a key, a row joins one of them at most, and a join never repeats a row of the left side.

* `join`, `leftJoin`, `groupBy` — the operators.
* `filter_key` — the rows of a key, where keys are distinct.
* `leftJoin_eq`, `join_eq` — **a join is a look-up**; `join_sublist` — it keeps some of the rows.
* `mem_join`, `mem_groupBy`, `nodup_groupBy` — their rows.
-/

import Mathlib.Data.List.Dedup
import Mathlib.Data.List.Nodup

namespace SuiteCloud.Library.Join

variable {α β K : Type*} [DecidableEq K] (left : α → K) (right : β → K)

/-- **`JOIN`**: each row with each row of the other side that has its key. -/
def join (rows : List α) (others : List β) : List (α × β) :=
  rows.flatMap fun row => (others.filter fun other => right other = left row).map (row, ·)

/-- **`LEFT JOIN`**: a row that joins none is kept on its own. -/
def leftJoin (rows : List α) (others : List β) : List (α × Option β) :=
  rows.flatMap fun row =>
    match others.filter fun other => right other = left row with
    | [] => [(row, none)]
    | found => found.map fun other => (row, some other)

/-- **`GROUP BY`**: one row for each key, worked out from the rows that have it. -/
def groupBy (aggregate : K → List α → β) (rows : List α) : List β :=
  (rows.map left).dedup.map fun k => aggregate k (rows.filter fun row => left row = k)

variable {left right} {rows : List α} {others : List β}

theorem mem_join {row : α} {other : β} :
    (row, other) ∈ join left right rows others ↔
      row ∈ rows ∧ other ∈ others ∧ right other = left row := by
  unfold join
  rw [List.mem_flatMap]
  constructor
  · rintro ⟨one, here, among⟩
    obtain ⟨two, chosen, same⟩ := List.mem_map.mp among
    obtain ⟨rfl, rfl⟩ := Prod.mk.inj same
    obtain ⟨there, equal⟩ := List.mem_filter.mp chosen
    exact ⟨here, there, of_decide_eq_true equal⟩
  · rintro ⟨here, there, equal⟩
    exact ⟨row, here, List.mem_map_of_mem (List.mem_filter.mpr ⟨there, decide_eq_true equal⟩)⟩

/-- **The rows of a key**, where no two share one: the row found, or none. -/
theorem filter_key (distinct : (others.map right).Nodup) (k : K) :
    others.filter (fun other => right other = k)
      = (others.find? fun other => right other = k).toList := by
  induction others with
  | nil => rfl
  | cons other rest ih =>
    obtain ⟨fresh, restDistinct⟩ := List.nodup_cons.mp distinct
    rw [List.filter_cons, List.find?_cons]
    by_cases same : right other = k
    · have none : rest.filter (fun later => right later = k) = [] := by
        refine List.filter_eq_nil_iff.mpr fun later there equal => fresh ?_
        rw [same, ← of_decide_eq_true equal]
        exact List.mem_map_of_mem there
      rw [decide_eq_true same, none]
      rfl
    · rw [decide_eq_false same]
      exact ih restDistinct

/-- **A left join is a look-up**, where the keys of the other side are distinct. -/
theorem leftJoin_eq (distinct : (others.map right).Nodup) :
    leftJoin left right rows others
      = rows.map fun row => (row, others.find? fun other => right other = left row) := by
  unfold leftJoin
  induction rows with
  | nil => rfl
  | cons row rest ih =>
    rw [List.flatMap_cons, List.map_cons, ih, filter_key distinct]
    cases others.find? fun other => right other = left row with
    | none => rfl
    | some other => rfl

/-- **A join that finds a row for each is a look-up** too. -/
theorem join_eq (distinct : (others.map right).Nodup)
    (found : ∀ row ∈ rows, left row ∈ others.map right) :
    (join left right rows others).map (fun pair => (pair.1, some pair.2))
      = rows.map fun row => (row, others.find? fun other => right other = left row) := by
  unfold join
  induction rows with
  | nil => rfl
  | cons row rest ih =>
    rw [List.flatMap_cons, List.map_append, List.map_cons,
      ih fun later there => found later (List.mem_cons_of_mem _ there), filter_key distinct]
    cases there : others.find? fun other => right other = left row with
    | some other => rfl
    | none =>
      obtain ⟨other, here, same⟩ := List.mem_map.mp (found row List.mem_cons_self)
      exact absurd (decide_eq_true same) (List.find?_eq_none.mp there other here)

/-- A join keeps some of the rows, each once, where the keys of the other side are distinct. -/
theorem join_sublist (distinct : (others.map right).Nodup) :
    ((join left right rows others).map Prod.fst).Sublist rows := by
  unfold join
  induction rows with
  | nil => exact List.Sublist.slnil
  | cons row rest ih =>
    rw [List.flatMap_cons, List.map_append, filter_key distinct]
    cases others.find? fun other => right other = left row with
    | none => exact ih.cons row
    | some other => exact ih.cons_cons row

theorem mem_groupBy {aggregate : K → List α → β} {other : β} :
    other ∈ groupBy left aggregate rows ↔
      ∃ row ∈ rows, other = aggregate (left row) (rows.filter fun one => left one = left row) := by
  unfold groupBy
  rw [List.mem_map]
  constructor
  · rintro ⟨k, member, rfl⟩
    obtain ⟨row, here, rfl⟩ := List.mem_map.mp (List.mem_dedup.mp member)
    exact ⟨row, here, rfl⟩
  · rintro ⟨row, here, rfl⟩
    exact ⟨left row, List.mem_dedup.mpr (List.mem_map_of_mem here), rfl⟩

/-- **Groups have distinct keys.** -/
theorem nodup_groupBy {aggregate : K → List α → β} (named : ∀ k group, right (aggregate k group) = k) :
    ((groupBy left aggregate rows).map right).Nodup := by
  unfold groupBy
  rw [List.map_map]
  have same : (right ∘ fun k => aggregate k (rows.filter fun row => left row = k)) = id := by
    funext k
    exact named k _
  rw [same, List.map_id]
  exact List.nodup_dedup _

end SuiteCloud.Library.Join
