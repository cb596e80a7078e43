/-
**Window functions over bags of rows.**

A bag of rows is a list. A window names each row's partition and orders the rows by a time; a window
function gives each row a value worked out from the rows before it.

* `window` — a window function; `mem_window` — its entries, one for each row.
* `lag` — the row before, in the same partition; `rowNumber` — the number of the row in it.
* `IsPrevious` — **what `lag` finds**: the last of the earlier rows of the partition, or none.
  `isPrevious_lag` where no two rows of a partition share a time.
* `IsPrevious.unique`, `IsPrevious.of_subset`, `IsPrevious.append` — it is the same in every bag that
  holds the rows that matter.
* `rowNumber_one` — the first row of a partition has the number one.
* `isPrevious_of_neighbours`, `isPrevious_of_head` — neighbours of a sorted partition.
* `IsPrevious.neighbours` — the same, for rows that come in order.
-/

import Mathlib.Data.List.Chain
import Mathlib.Data.List.Infix
import Mathlib.Data.List.Nodup
import Mathlib.Data.List.Perm.Subperm
import Mathlib.Data.List.Sort

set_option linter.unusedSectionVars false

namespace SuiteCloud.Library.Window

variable {α β K T : Type*} [DecidableEq K] [LinearOrder T]

/-! ## Window functions -/

/-- The rows of an ordered list, each with a value worked out from those seen before it, the nearest
first. -/
def along (see : List α → α → β) : List α → List α → List (α × β)
  | _, [] => []
  | seen, row :: rest => (row, see seen row) :: along see (row :: seen) rest

variable (part : α → K) (time : α → T)

/-- The rows in the order of the window. -/
def sorted (rows : List α) : List α := rows.insertionSort (time · ≤ time ·)

/-- **A window function**, over rows ordered by a time. -/
def window (see : List α → α → β) (rows : List α) : List (α × β) := along see [] (sorted time rows)

/-- **The row before**, in the same partition. -/
def lag (rows : List α) : List (α × Option α) :=
  window time (fun seen row => seen.find? fun other => part other = part row) rows

/-- **The number of a row** in its partition. -/
def rowNumber (rows : List α) : List (α × ℕ) :=
  window time (fun seen row => (seen.countP fun other => part other = part row) + 1) rows

/-- No two rows of a partition share a time. -/
def Distinct (rows : List α) : Prop := (rows.map fun row => (part row, time row)).Nodup

/-- **The last of the earlier rows of a row's partition**, or none. -/
def IsPrevious (rows : List α) (row : α) : Option α → Prop
  | none => ∀ other ∈ rows, part other = part row → time row ≤ time other
  | some before => before ∈ rows ∧ part before = part row ∧ time before < time row ∧
      ∀ other ∈ rows, part other = part row → time other < time row → time other ≤ time before

instance decidableIsPrevious [DecidableEq α] (rows : List α) (row : α) :
    ∀ before, Decidable (IsPrevious part time rows row before)
  | none => inferInstanceAs (Decidable (∀ other ∈ rows, part other = part row → time row ≤ time other))
  | some before => inferInstanceAs (Decidable (before ∈ rows ∧ part before = part row ∧
      time before < time row ∧
      ∀ other ∈ rows, part other = part row → time other < time row → time other ≤ time before))

variable {part time} {see : List α → α → β} {rows more : List α} {row other : α} {value : β}
  {before after : Option α}

/-! ## The entries of a window function -/

theorem map_along : ∀ (seen rows : List α), (along see seen rows).map Prod.fst = rows
  | _, [] => rfl
  | seen, row :: rest => congrArg (row :: ·) (map_along (row :: seen) rest)

/-- An entry is a row with what was seen before it. -/
theorem mem_along : ∀ {seen rows : List α}, (row, value) ∈ along see seen rows ↔
    ∃ early late, rows = early ++ row :: late ∧ value = see (early.reverse ++ seen) row
  | seen, [] => by
      constructor
      · intro none
        cases none
      · rintro ⟨early, late, none, -⟩
        exact absurd none.symm (List.append_ne_nil_of_right_ne_nil _ (List.cons_ne_nil _ _))
  | seen, first :: rest => by
      rw [along, List.mem_cons, mem_along]
      constructor
      · rintro (same | ⟨early, late, rfl, rfl⟩)
        · obtain ⟨rfl, rfl⟩ := Prod.mk.inj same
          exact ⟨[], rest, rfl, rfl⟩
        · refine ⟨first :: early, late, rfl, ?_⟩
          rw [List.reverse_cons, List.append_assoc]
          rfl
      · rintro ⟨early, late, split, rfl⟩
        cases early with
        | nil =>
          obtain ⟨rfl, -⟩ := List.cons.inj split
          exact Or.inl rfl
        | cons second early =>
          obtain ⟨rfl, rfl⟩ := List.cons.inj split
          refine Or.inr ⟨early, late, rfl, ?_⟩
          rw [List.reverse_cons, List.append_assoc]
          rfl

theorem sorted_perm (time : α → T) (rows : List α) : (sorted time rows).Perm rows := List.perm_insertionSort _ _

theorem mem_sorted (time : α → T) : row ∈ sorted time rows ↔ row ∈ rows := (sorted_perm time rows).mem_iff

theorem pairwise_sorted (time : α → T) (rows : List α) :
    (sorted time rows).Pairwise fun first second => time first ≤ time second :=
  List.pairwise_insertionSort _ _

/-- **A window function has one entry for each row.** -/
theorem window_perm : ((window time see rows).map Prod.fst).Perm rows := by
  rw [window, map_along]
  exact sorted_perm time rows

theorem mem_window : (row, value) ∈ window time see rows ↔
    ∃ early late, sorted time rows = early ++ row :: late ∧ value = see early.reverse row := by
  rw [window, mem_along]
  simp only [List.append_nil]

/-! ## The row before -/

theorem Distinct.eq (distinct : Distinct part time rows) (here : row ∈ rows) (there : other ∈ rows)
    (samePart : part row = part other) (sameTime : time row = time other) : row = other :=
  List.inj_on_of_nodup_map distinct here there (Prod.ext samePart sameTime)

theorem Distinct.perm (distinct : Distinct part time rows) (perm : more.Perm rows) :
    Distinct part time more := (perm.map _).nodup_iff.mpr distinct

/-- Fewer rows are distinct too. -/
theorem Distinct.subperm (distinct : Distinct part time rows) (fewer : more.Subperm rows) :
    Distinct part time more := by
  obtain ⟨middle, perm, sublist⟩ := fewer
  exact Distinct.perm (distinct.sublist (sublist.map _)) perm.symm

/-- A row of a partition that comes earlier in the order has an earlier time. -/
theorem Distinct.time_lt {early late : List α} (distinct : Distinct part time rows)
    (split : sorted time rows = early ++ row :: late) (there : other ∈ early)
    (same : part other = part row) : time other < time row := by
  have ordered := pairwise_sorted time rows
  have apart := distinct.perm (sorted_perm time rows)
  rw [split] at ordered apart
  have before := (List.pairwise_append.mp ordered).2.2 other there row List.mem_cons_self
  refine lt_of_le_of_ne before fun equal => ?_
  unfold Distinct at apart
  rw [List.map_append, List.nodup_append] at apart
  exact apart.2.2 _ (List.mem_map_of_mem there) _ List.mem_cons_self (Prod.ext same equal)

/-- A row that comes later in the order has no earlier time. -/
theorem time_le_of_late {early late : List α} (split : sorted time rows = early ++ row :: late)
    (there : other ∈ row :: late) : time row ≤ time other := by
  rcases List.mem_cons.mp there with rfl | there
  · exact le_rfl
  · have ordered := pairwise_sorted time rows
    rw [split] at ordered
    exact (List.pairwise_cons.mp (List.pairwise_append.mp ordered).2.1).1 other there

/-- **What `lag` finds** is the last of the earlier rows of the partition. -/
theorem isPrevious_lag (distinct : Distinct part time rows)
    (entry : (row, before) ∈ lag part time rows) : IsPrevious part time rows row before := by
  obtain ⟨early, late, split, rfl⟩ := mem_window.mp entry
  have cases : ∀ other ∈ rows, other ∈ early ∨ other ∈ row :: late := by
    intro other there
    rw [← mem_sorted time, split] at there
    exact List.mem_append.mp there
  cases found : early.reverse.find? fun other => part other = part row with
  | none =>
    intro other there same
    rcases cases other there with earlier | later
    · have differs := List.find?_eq_none.mp found other (List.mem_reverse.mpr earlier)
      exact absurd (decide_eq_true same) differs
    · exact time_le_of_late split later
  | some before =>
    obtain ⟨same, nearer, farther, reversed, none⟩ := List.find?_eq_some_iff_append.mp found
    have same := of_decide_eq_true same
    have shape : early = farther.reverse ++ before :: nearer.reverse := by
      rw [← List.reverse_reverse early, reversed]
      simp only [List.reverse_append, List.reverse_cons, List.append_assoc, List.cons_append,
        List.nil_append]
    have earlier : before ∈ early := by
      rw [shape]
      exact List.mem_append_right _ List.mem_cons_self
    have there : before ∈ rows := by
      rw [← mem_sorted time, split]
      exact List.mem_append_left _ earlier
    refine ⟨there, same, distinct.time_lt split earlier same, fun other here samePart less => ?_⟩
    rcases cases other here with earlier | later
    · -- Between the row and the one found there is no other of the partition.
      rw [shape] at earlier
      rcases List.mem_append.mp earlier with far | near
      · have ordered := pairwise_sorted time rows
        rw [split, shape] at ordered
        have first := (List.pairwise_append.mp (List.pairwise_append.mp ordered).1).2.2
        exact first other far before List.mem_cons_self
      · rcases List.mem_cons.mp near with rfl | near
        · exact le_rfl
        · have differs := none other (List.mem_reverse.mp near)
          rw [decide_eq_true samePart] at differs
          cases differs
    · exact absurd less (not_lt.mpr (time_le_of_late split later))

/-- **There is one previous row at most.** -/
theorem IsPrevious.unique (distinct : Distinct part time rows)
    (first : IsPrevious part time rows row before) (second : IsPrevious part time rows row after) :
    before = after := by
  cases before with
  | none =>
    cases after with
    | none => rfl
    | some last => exact absurd second.2.2.1 (not_lt.mpr (first last second.1 second.2.1))
  | some one =>
    obtain ⟨there, same, less, last⟩ := first
    cases after with
    | none => exact absurd less (not_lt.mpr (second one there same))
    | some two =>
      obtain ⟨there', same', less', last'⟩ := second
      have times : time one = time two := le_antisymm (last' one there same less)
        (last two there' same' less')
      exact congrArg some (distinct.eq there there' (same.trans same'.symm) times)

/-- The previous row is the same in fewer rows that hold it. -/
theorem IsPrevious.of_subset (previous : IsPrevious part time more row before)
    (fewer : ∀ other ∈ rows, other ∈ more) (holds : ∀ one ∈ before, one ∈ rows) :
    IsPrevious part time rows row before := by
  cases before with
  | none => exact fun other there => previous other (fewer other there)
  | some one =>
    obtain ⟨-, same, less, last⟩ := previous
    exact ⟨holds one rfl, same, less, fun other there => last other (fewer other there)⟩

/-- **The previous row stays** when rows are added that are not earlier. -/
theorem IsPrevious.append (previous : IsPrevious part time rows row before)
    (later : ∀ other ∈ more, part other = part row → time row ≤ time other) :
    IsPrevious part time (rows ++ more) row before := by
  cases before with
  | none =>
    intro other there same
    rcases List.mem_append.mp there with old | new
    · exact previous other old same
    · exact later other new same
  | some one =>
    obtain ⟨there, same, less, last⟩ := previous
    refine ⟨List.mem_append_left _ there, same, less, fun other here samePart earlier => ?_⟩
    rcases List.mem_append.mp here with old | new
    · exact last other old samePart earlier
    · exact absurd earlier (not_lt.mpr (later other new samePart))

/-- The previous row is the same in a bag of the same rows. -/
theorem IsPrevious.congr (previous : IsPrevious part time rows row before)
    (same : ∀ other, other ∈ rows ↔ other ∈ more) : IsPrevious part time more row before := by
  refine previous.of_subset (fun other there => (same other).mpr there) ?_
  rintro one rfl
  exact (same one).mp previous.1

/-- The previous row of an image is the image of the previous row. -/
theorem IsPrevious.map {γ : Type*} {f : γ → α} {rows : List γ} {row : γ} {before : Option γ}
    (previous : IsPrevious (part ∘ f) (time ∘ f) rows row before) :
    IsPrevious part time (rows.map f) (f row) (before.map f) := by
  cases before with
  | none =>
    intro other there
    obtain ⟨one, here, rfl⟩ := List.mem_map.mp there
    exact previous one here
  | some one =>
    obtain ⟨there, same, less, last⟩ := previous
    refine ⟨List.mem_map_of_mem there, same, less, fun other among => ?_⟩
    obtain ⟨two, here, rfl⟩ := List.mem_map.mp among
    exact last two here

/-- Every row has a previous row, or none. -/
theorem exists_isPrevious (distinct : Distinct part time rows) (here : row ∈ rows) :
    ∃ before, IsPrevious part time rows row before := by
  have entry : row ∈ (lag part time rows).map Prod.fst := window_perm.mem_iff.mpr here
  obtain ⟨⟨row, before⟩, found, rfl⟩ := List.mem_map.mp entry
  exact ⟨before, isPrevious_lag distinct found⟩

/-! ## The number of a row -/

/-- **The first row of a partition** has the number one. -/
theorem rowNumber_one (distinct : Distinct part time rows) (here : row ∈ rows)
    (first : ∀ other ∈ rows, part other = part row → time row ≤ time other) :
    (row, 1) ∈ rowNumber part time rows := by
  obtain ⟨early, late, split⟩ := List.append_of_mem ((mem_sorted time).mpr here)
  refine mem_window.mpr ⟨early, late, split, ?_⟩
  have none : early.reverse.countP (fun other => part other = part row) = 0 := by
    refine List.countP_eq_zero.mpr fun other there same => ?_
    have earlier := List.mem_reverse.mp there
    have same := of_decide_eq_true same
    have held : other ∈ rows := by
      rw [← mem_sorted time, split]
      exact List.mem_append_left _ earlier
    exact absurd (distinct.time_lt split earlier same) (not_lt.mpr (first other held same))
  rw [none]

/-! ## Neighbours of a sorted partition -/

/-- The rows of one partition, in order. -/
def partition (part : α → K) (time : α → T) (rows : List α) (k : K) : List α :=
  sorted time (rows.filter fun row => part row = k)

theorem mem_partition {k : K} : row ∈ partition part time rows k ↔ row ∈ rows ∧ part row = k := by
  rw [partition, mem_sorted, List.mem_filter, decide_eq_true_iff]

/-- **The first row** of a partition has none before it. -/
theorem isPrevious_of_head {k : K} {rest : List α}
    (first : partition part time rows k = row :: rest) : IsPrevious part time rows row none := by
  intro other there same
  have here : row ∈ partition part time rows k := first ▸ List.mem_cons_self
  have held : other ∈ partition part time rows k :=
    mem_partition.mpr ⟨there, same.trans (mem_partition.mp here).2⟩
  rw [first] at held
  exact time_le_of_late (first.trans (List.nil_append _).symm) held

/-- **Neighbours** in a partition: the one is the previous row of the other. -/
theorem isPrevious_of_neighbours {k : K} (distinct : Distinct part time rows)
    (next : [row, other] <:+: partition part time rows k) :
    IsPrevious part time rows other (some row) := by
  obtain ⟨early, late, split⟩ := next
  have shape : partition part time rows k = early ++ row :: other :: late := by
    rw [← split, List.append_assoc]
    rfl
  have shape' : partition part time rows k = (early ++ [row]) ++ other :: late := by
    rw [shape, List.append_assoc]
    rfl
  have firstHere : row ∈ partition part time rows k := by
    rw [shape]
    exact List.mem_append_right _ List.mem_cons_self
  have secondHere : other ∈ partition part time rows k := by
    rw [shape']
    exact List.mem_append_right _ List.mem_cons_self
  obtain ⟨there, named⟩ := mem_partition.mp firstHere
  obtain ⟨-, named'⟩ := mem_partition.mp secondHere
  have same : part row = part other := named.trans named'.symm
  have within : Distinct part time (rows.filter fun row => part row = k) :=
    distinct.sublist (List.filter_sublist.map _)
  refine ⟨there, same, ?_, fun third held samePart less => ?_⟩
  · exact within.time_lt shape' (List.mem_append_right _ (List.mem_singleton_self _)) same
  · have among : third ∈ partition part time rows k :=
      mem_partition.mpr ⟨held, samePart.trans named'⟩
    rw [shape'] at among
    rcases List.mem_append.mp among with earlier | later
    · rcases List.mem_append.mp earlier with far | near
      · have ordered := pairwise_sorted time (rows.filter fun row => part row = k)
        rw [show sorted time (rows.filter fun row => part row = k) = _ from shape] at ordered
        exact (List.pairwise_append.mp ordered).2.2 third far row List.mem_cons_self
      · exact le_of_eq (congrArg time (List.mem_singleton.mp near))
    · exact absurd less (not_lt.mpr (time_le_of_late shape' later))

/-! ## Rows that come in order -/

/-- What holds along every partition holds of any two rows of one partition. -/
theorem pairwise_of_partitions {R : α → α → Prop} :
    ∀ {rows : List α}, (∀ k, (rows.filter fun row => part row = k).Pairwise R) →
      rows.Pairwise fun first second => part first = part second → R first second
  | [], _ => List.Pairwise.nil
  | row :: rest, along => by
      refine List.pairwise_cons.mpr ⟨fun other there same => ?_, pairwise_of_partitions fun k => ?_⟩
      · have ordered := along (part row)
        rw [List.filter_cons, if_pos (decide_eq_true rfl)] at ordered
        exact (List.pairwise_cons.mp ordered).1 other
          (List.mem_filter.mpr ⟨there, decide_eq_true same.symm⟩)
      · exact (along k).sublist ((List.sublist_cons_self row rest).filter _)

/-- What holds of any two rows of one partition holds along it. -/
theorem pairwise_partition {R : α → α → Prop}
    (related : rows.Pairwise fun first second => part first = part second → R first second) (k : K) :
    (rows.filter fun row => part row = k).Pairwise R := by
  refine (related.sublist List.filter_sublist).imp_of_mem fun member member' relate => ?_
  have first := of_decide_eq_true (List.mem_filter.mp member).2
  have second := of_decide_eq_true (List.mem_filter.mp member').2
  exact relate (first.trans second.symm)

/-- **Neighbours of a partition that comes in order** are a row and its previous one. -/
theorem IsPrevious.neighbours {R : α → α → Prop} {k : K} {one : α}
    (previous : IsPrevious part time rows row (some one)) (here : row ∈ rows) (named : part row = k)
    (ordered : (rows.filter fun row => part row = k).Pairwise fun a b => time a < time b)
    (chain : (rows.filter fun row => part row = k).IsChain R) : R one row := by
  obtain ⟨there, same, less, last⟩ := previous
  have self : row ∈ rows.filter fun row => part row = k :=
    List.mem_filter.mpr ⟨here, decide_eq_true named⟩
  obtain ⟨early, late, split⟩ := List.append_of_mem self
  have among : one ∈ rows.filter fun row => part row = k :=
    List.mem_filter.mpr ⟨there, decide_eq_true (same.trans named)⟩
  rw [split] at ordered among chain
  obtain ⟨-, after, between⟩ := List.pairwise_append.mp ordered
  have earlier : one ∈ early := by
    refine (List.mem_append.mp among).resolve_right fun later => ?_
    rcases List.mem_cons.mp later with rfl | later
    · exact lt_irrefl _ less
    · exact lt_asymm less ((List.pairwise_cons.mp after).1 one later)
  rcases List.eq_nil_or_concat early with rfl | ⟨front, neighbour, rfl⟩
  · cases earlier
  · have related : R neighbour row := by
      rw [List.concat_eq_append, List.append_assoc] at chain
      exact (List.isChain_append_cons_cons.mp chain).2.1
    rw [List.concat_eq_append] at earlier between split ordered
    rcases List.mem_append.mp earlier with far | near
    · have held : neighbour ∈ rows.filter fun row => part row = k := by
        rw [split]
        exact List.mem_append_left _ (List.mem_append_right _ (List.mem_singleton_self _))
      obtain ⟨inside, alike⟩ := List.mem_filter.mp held
      have before := between neighbour (List.mem_append_right _ (List.mem_singleton_self _)) row
        List.mem_cons_self
      have farther := (List.pairwise_append.mp (List.pairwise_append.mp ordered).1).2.2 one far
        neighbour (List.mem_singleton_self _)
      exact absurd (last neighbour inside ((of_decide_eq_true alike).trans named.symm) before)
        (not_le.mpr farther)
    · rw [List.mem_singleton.mp near]
      exact related

end SuiteCloud.Library.Window
