/-
**Telemetry: the change of every metric since the previous point of its series.**

`METRIC_DELTA_COLUMNS` in `suite_cloud/telemetry/__init__.py` and, in `suite_cloud/telemetry/warehouse.py`,
`fill_deltas`, which works the changes out over the whole table, and `get_metrics_insert`, which works
them out for the rows of one load from the few stored rows it looks up. A table is a list of rows; the
joins, the groups and the window functions are those of the library. Totals are exact numbers.

* `fillDeltas`, `metricsInsert` — **the two statements**.
* `Follows` — **the specification**: a stored row has the change since the previous point of its
  series, beside the previous push of its host.
* `fillDeltas_eq` — where every row follows, filling the deltas changes nothing.
* `follows_insert` — what a load inserts follows, when the load continues the stored history.
-/

import Mathlib.Algebra.Order.Ring.Rat
import Mathlib.Data.List.ReduceOption
import SuiteCloud.Library.Join
import SuiteCloud.Library.Window

namespace SuiteCloud.Telemetry.Deltas

open SuiteCloud.Library.Join SuiteCloud.Library.Window

/-! ## The metrics table -/

inductive MetricType
  | counter
  | gauge
  | histogram
  deriving DecidableEq

/-- A series: a metric of a host under one set of labels. -/
structure Series where
  hostIp : String
  name : String
  labels : Option String
  deriving DecidableEq

/-- A row of the metrics table, with the columns the deltas read; its moment is in microseconds. -/
structure MetricRow where
  hostIp : String
  timestamp : ℤ
  name : String
  type : MetricType
  value : ℚ
  count : Option ℤ
  sum : Option ℚ
  labels : Option String
  deriving DecidableEq

def MetricRow.series (row : MetricRow) : Series := ⟨row.hostIp, row.name, row.labels⟩

/-- The push a row came with. -/
def MetricRow.push (row : MetricRow) : String × ℤ := (row.hostIp, row.timestamp)

/-- A stored row with its delta columns. -/
structure StoredMetric where
  row : MetricRow
  increase : Option ℚ
  samplesAdded : Option ℤ
  deriving DecidableEq

/-! ## The delta columns -/

/-- A row with what stands beside it: the previous point of its series and its host's previous push. -/
structure Change where
  row : MetricRow
  previousValue : Option ℚ
  previousCount : Option ℤ
  previousSum : Option ℚ
  previousPush : Option ℤ

/-- A comparison, which is unknown where a side is null. -/
def less {α : Type} [LinearOrder α] (first second : Option α) : Option Bool :=
  first.bind fun a => second.map fun b => decide (a < b)

/-- `OR`, unknown unless a side decides it. -/
def either : Option Bool → Option Bool → Option Bool
  | some true, _ => some true
  | _, some true => some true
  | some false, some false => some false
  | _, _ => none

/-- **`get_change`**: null on a host's first push, the whole total where the series is new or fell, and
the difference elsewhere. -/
def getChange {α : Type} [Sub α] (change : Change) (total previous : Option α)
    (reset : Option Bool) : Option α :=
  if change.previousValue = none ∧ change.previousPush = none then none
  else if either (some change.previousValue.isNone) reset = some true then total
  else total.bind fun now => previous.map fun before => now - before

/-- `HISTOGRAM_RESET`. -/
def Change.histogramReset (change : Change) : Option Bool :=
  either (less change.row.count change.previousCount) (less change.row.sum change.previousSum)

/-- The column `increase`. -/
def Change.increase (change : Change) : Option ℚ :=
  match change.row.type with
  | .counter => getChange change (some change.row.value) change.previousValue
      (less (some change.row.value) change.previousValue)
  | .histogram => getChange change change.row.sum change.previousSum change.histogramReset
  | .gauge => none

/-- The column `samples_added`. -/
def Change.samplesAdded (change : Change) : Option ℤ :=
  match change.row.type with
  | .histogram => getChange change change.row.count change.previousCount change.histogramReset
  | _ => none

def Change.stored (change : Change) : StoredMetric :=
  ⟨change.row, change.increase, change.samplesAdded⟩

/-- A row beside the previous point of its series and its host's previous push. -/
def MetricRow.change (row : MetricRow) (previous : Option MetricRow) (push : Option ℤ) : Change where
  row := row
  previousValue := previous.map (·.value)
  previousCount := previous.bind (·.count)
  previousSum := previous.bind (·.sum)
  previousPush := push

/-! ## What the two statements share -/

/-- A host's push and the moment of the one before it. -/
abbrev PushBefore := (String × ℤ) × Option ℤ

/-- `PREVIOUS_PUSH`: each push with the one before it of its host. -/
def previousPushes (pushes : List (String × ℤ)) : List PushBefore :=
  (lag Prod.fst Prod.snd pushes).map fun entry => (entry.1, entry.2.map Prod.snd)

/-- A row joined with its push; the tag is what else the statement selects with it. -/
structure Point (Tag : Type) where
  tag : Tag
  row : MetricRow
  previousPush : Option ℤ

/-- `PREVIOUS_POINT` over `SERIES_WINDOW`. -/
def changes {Tag : Type} (points : List (Point Tag)) : List (Tag × Change) :=
  (lag (·.row.series) (·.row.timestamp) points).map fun entry =>
    (entry.1.tag, entry.1.row.change (entry.2.map (·.row)) entry.1.previousPush)

/-! ## The whole table -/

/-- **`fill_deltas`**: the delta columns of every row, worked out over the whole table. -/
def fillDeltas (table : List StoredMetric) : List StoredMetric :=
  let numbered := (table.map (·.row)).zipIdx
  let pushes := previousPushes ((table.map (·.row.push)).dedup)
  let points := changes ((join (·.1.push) Prod.fst numbered pushes).map fun pair =>
    (⟨pair.1.2, pair.1.1, pair.2.2⟩ : Point ℕ))
  table.zipIdx.map fun entry =>
    match points.find? fun point => point.1 = entry.2 with
    | some point =>
        { entry.1 with increase := point.2.increase, samplesAdded := point.2.samplesAdded }
    | none => entry.1

/-! ## The rows of one load -/

/-- `INTERVAL 1 DAY`. -/
def day : ℤ := 86400 * 1000000

/-- The first and the last incoming row of a series. -/
structure Bounds where
  series : Series
  first : Option ℤ
  last : Option ℤ

/-- The query `bounds`. -/
def bounds (incoming : List MetricRow) : List Bounds :=
  groupBy MetricRow.series
    (fun series group => ⟨series, (group.map (·.timestamp)).min?, (group.map (·.timestamp)).max?⟩)
    incoming

/-- A day before the first of some moments. -/
def since (firsts : List (Option ℤ)) : Option ℤ := firsts.reduceOption.min?.map (· - day)

/-- The stored rows of the incoming series, each with its bounds: those before the last incoming row
and at most a day before any. A comparison with null is not true. -/
def storedWithin (table : List StoredMetric) (incoming : List MetricRow) :
    List (MetricRow × Bounds) :=
  (join MetricRow.series Bounds.series (table.map (·.row)) (bounds incoming)).filter fun pair =>
    pair.2.last.any (pair.1.timestamp < ·) &&
      (since ((bounds incoming).map (·.first))).any (· ≤ pair.1.timestamp)

/-- `stored.timestamp > bounds.first`. -/
def isLate (pair : MetricRow × Bounds) : Bool := pair.2.first.any (· < pair.1.timestamp)

/-- **The query `stored`**: the newest stored row of a series before its first incoming one, and any
after it. -/
def stored (table : List StoredMetric) (incoming : List MetricRow) : List MetricRow :=
  ((rowNumber (fun pair => (pair.1.series, isLate pair))
      (fun pair => OrderDual.toDual pair.1.timestamp) (storedWithin table incoming)).filter
    fun numbered => isLate numbered.1 || decide (numbered.2 = 1)).map (·.1.1)

/-- The query `hosts`: the first incoming row of each host. -/
def hosts (incoming : List MetricRow) : List (String × Option ℤ) :=
  groupBy (·.series.hostIp) (fun host group => (host, (group.map (·.first)).reduceOption.min?))
    (bounds incoming)

/-- The stored rows of the incoming hosts: those before the host's first incoming row and at most a day
before any. -/
def pushWithin (table : List StoredMetric) (incoming : List MetricRow) :
    List (MetricRow × String × Option ℤ) :=
  (join MetricRow.hostIp Prod.fst (table.map (·.row)) (hosts incoming)).filter
    fun pair => pair.2.2.any (pair.1.timestamp < ·) &&
      (since ((hosts incoming).map Prod.snd)).any (· ≤ pair.1.timestamp)

/-- The newest stored push of each host before its first incoming one. -/
def storedPushes (table : List StoredMetric) (incoming : List MetricRow) : List (String × ℤ) :=
  (groupBy (·.1.hostIp) (fun host group => (host, (group.map (·.1.timestamp)).max?))
    (pushWithin table incoming)).filterMap fun group => group.2.map (group.1, ·)

/-- The query `pushes`. -/
def pushes (table : List StoredMetric) (incoming : List MetricRow) : List PushBefore :=
  previousPushes ((incoming.map (·.push) ++ storedPushes table incoming).dedup)

/-- The query `points`: the tag says whether a row is incoming. -/
def points (table : List StoredMetric) (incoming : List MetricRow) : List (Bool × MetricRow) :=
  incoming.map (true, ·) ++ (stored table incoming).map (false, ·)

/-- **`get_metrics_insert`**: the rows the statement inserts. -/
def metricsInsert (table : List StoredMetric) (incoming : List MetricRow) : List StoredMetric :=
  let joined := leftJoin (·.2.push) Prod.fst (points table incoming) (pushes table incoming)
  ((changes (joined.map fun pair =>
    (⟨pair.1.1, pair.1.2, pair.2.bind Prod.snd⟩ : Point Bool))).filter (·.1)).map (·.2.stored)

/-! ## The specification -/

/-- The pushes some rows came with. -/
def pushesOf (rows : List MetricRow) : List (String × ℤ) := (rows.map (·.push)).dedup

/-- No series has two points of one moment. -/
abbrev OnePoint (rows : List MetricRow) : Prop := Distinct MetricRow.series MetricRow.timestamp rows

/-- The previous point of a row's series. -/
abbrev PreviousPoint (rows : List MetricRow) (row : MetricRow) (previous : Option MetricRow) : Prop :=
  IsPrevious MetricRow.series MetricRow.timestamp rows row previous

/-- The push before a row's own, of its host. -/
abbrev PreviousPush (rows : List MetricRow) (row : MetricRow) (push : Option (String × ℤ)) : Prop :=
  IsPrevious Prod.fst Prod.snd (pushesOf rows) row.push push

/-- **A stored row follows some rows**: it has the change since the previous point of its series among
them, beside the previous push of its host. -/
def Follows (rows : List MetricRow) (entry : StoredMetric) : Prop :=
  ∃ previous push, PreviousPoint rows entry.row previous ∧ PreviousPush rows entry.row push ∧
    entry = (entry.row.change previous (push.map Prod.snd)).stored

variable {Tag : Type} {rows more incoming : List MetricRow} {table : List StoredMetric}
  {row : MetricRow} {entry : StoredMetric} {push : String × ℤ}

theorem mem_pushesOf : push ∈ pushesOf rows ↔ ∃ row ∈ rows, row.push = push := by
  rw [pushesOf, List.mem_dedup, List.mem_map]

theorem push_mem_pushesOf (here : row ∈ rows) : row.push ∈ pushesOf rows :=
  mem_pushesOf.mpr ⟨row, here, rfl⟩

theorem distinct_of_nodup {list : List (String × ℤ)} (nodup : list.Nodup) :
    Distinct Prod.fst Prod.snd list := by
  unfold Distinct
  rw [List.map_id'' fun _ => rfl]
  exact nodup

/-! ## What the two statements share -/

/-- What a join with the pushes puts beside a row. -/
def pushBefore (pushes : List PushBefore) (push : String × ℤ) : Option ℤ :=
  (pushes.find? fun entry => entry.1 = push).bind Prod.snd

theorem previousPushes_perm (list : List (String × ℤ)) :
    ((previousPushes list).map Prod.fst).Perm list := by
  unfold previousPushes
  rw [List.map_map]
  exact window_perm

theorem pushBefore_eq {list : List (String × ℤ)} (nodup : list.Nodup) (here : push ∈ list) :
    ∃ before, IsPrevious Prod.fst Prod.snd list push before ∧
      pushBefore (previousPushes list) push = before.map Prod.snd := by
  obtain ⟨found, there, same⟩ := List.mem_map.mp ((previousPushes_perm list).mem_iff.mpr here)
  cases looked : (previousPushes list).find? fun entry => entry.1 = push with
  | none => exact absurd (decide_eq_true same) (List.find?_eq_none.mp looked found there)
  | some entry =>
    have named := List.find?_some (p := fun entry : PushBefore => entry.1 = push) looked
    obtain ⟨⟨one, before⟩, lagged, rfl⟩ := List.mem_map.mp (List.mem_of_find?_eq_some looked)
    obtain rfl : one = push := of_decide_eq_true named
    refine ⟨before, isPrevious_lag (distinct_of_nodup nodup) lagged, ?_⟩
    rw [pushBefore, looked]
    rfl

theorem changes_perm (list : List (Point Tag)) :
    ((changes list).map fun entry => (entry.1, entry.2.row)).Perm
      (list.map fun point => (point.tag, point.row)) := by
  have shape : (changes list).map (fun entry => (entry.1, entry.2.row))
      = ((lag (·.row.series) (·.row.timestamp) list).map Prod.fst).map
        fun point => (point.tag, point.row) := by
    unfold changes
    rw [List.map_map, List.map_map]
    rfl
  rw [shape]
  exact window_perm.map _

theorem mem_changes {list : List (Point Tag)} {tag : Tag} {change : Change}
    (one : OnePoint (list.map (·.row))) (member : (tag, change) ∈ changes list) :
    ∃ point ∈ list, ∃ previous, PreviousPoint (list.map (·.row)) point.row previous ∧
      tag = point.tag ∧ change = point.row.change previous point.previousPush := by
  obtain ⟨⟨point, before⟩, lagged, same⟩ := List.mem_map.mp member
  obtain ⟨rfl, rfl⟩ := Prod.mk.inj same
  have distinct : Distinct (MetricRow.series ∘ Point.row) (MetricRow.timestamp ∘ Point.row) list := by
    unfold OnePoint Distinct at one
    rw [List.map_map] at one
    exact one
  have here : point ∈ list :=
    window_perm.mem_iff.mp (List.mem_map_of_mem (f := Prod.fst) lagged)
  exact ⟨point, here, _, (isPrevious_lag distinct lagged).map, rfl, rfl⟩

/-! ## Filling the whole table -/

/-- The points `fill_deltas` goes through: each row, under its row id, beside its push. -/
def fillPoints (table : List StoredMetric) : List (Point ℕ) :=
  (table.map (·.row)).zipIdx.map fun numbered => ⟨numbered.2, numbered.1,
    pushBefore (previousPushes (pushesOf (table.map (·.row)))) numbered.1.push⟩

theorem join_fillPoints (table : List StoredMetric) :
    (join (·.1.push) Prod.fst (table.map (·.row)).zipIdx
        (previousPushes ((table.map (·.row.push)).dedup))).map
      (fun pair => (⟨pair.1.2, pair.1.1, pair.2.2⟩ : Point ℕ)) = fillPoints table := by
  have all : (table.map (·.row.push)).dedup = pushesOf (table.map (·.row)) := by
    unfold pushesOf
    rw [List.map_map]
    rfl
  rw [all]
  have perm := previousPushes_perm (pushesOf (table.map (·.row)))
  have distinct := perm.nodup_iff.mpr (List.nodup_dedup _)
  have found : ∀ numbered ∈ (table.map (·.row)).zipIdx, numbered.1.push ∈
      (previousPushes (pushesOf (table.map (·.row)))).map Prod.fst := by
    intro numbered member
    rw [perm.mem_iff]
    exact push_mem_pushesOf (List.fst_mem_of_mem_zipIdx member)
  have looked := congrArg (List.map fun pair : (MetricRow × ℕ) × Option PushBefore =>
    (⟨pair.1.2, pair.1.1, pair.2.bind Prod.snd⟩ : Point ℕ)) (join_eq distinct found)
  rw [List.map_map, List.map_map] at looked
  exact looked

theorem find_fillPoints {id : ℕ} (one : OnePoint (table.map (·.row)))
    (here : (entry, id) ∈ table.zipIdx) (follows : Follows (table.map (·.row)) entry) :
    ∃ found, ((changes (fillPoints table)).find? fun point => point.1 = id) = some found ∧
      found.2.stored = entry := by
  obtain ⟨previous, push, isPrevious, isPush, filled⟩ := follows
  have at_id : table[id]? = some entry := List.mk_mem_zipIdx_iff_getElem?.mp here
  have numbered : (entry.row, id) ∈ (table.map (·.row)).zipIdx := by
    rw [List.mk_mem_zipIdx_iff_getElem?, List.getElem?_map, at_id]
    rfl
  have rows : (fillPoints table).map (·.row) = table.map (·.row) := by
    unfold fillPoints
    rw [List.map_map]
    exact List.zipIdx_map_fst 0 _
  cases looked : (changes (fillPoints table)).find? fun point => point.1 = id with
  | none =>
    have tagged : (id, entry.row) ∈ (changes (fillPoints table)).map
        fun point => (point.1, point.2.row) := by
      rw [(changes_perm _).mem_iff]
      exact List.mem_map.mpr ⟨_, List.mem_map_of_mem numbered, rfl⟩
    obtain ⟨point, there, same⟩ := List.mem_map.mp tagged
    have named : point.1 = id := congrArg Prod.fst same
    exact absurd (decide_eq_true named) (List.find?_eq_none.mp looked point there)
  | some found =>
    refine ⟨found, rfl, ?_⟩
    have named := of_decide_eq_true
      (List.find?_some (p := fun point : ℕ × Change => point.1 = id) looked)
    obtain ⟨point, there, before, isBefore, tag, change⟩ :=
      mem_changes (rows ▸ one) (List.mem_of_find?_eq_some looked)
    obtain ⟨⟨row, id'⟩, member, rfl⟩ := List.mem_map.mp there
    -- The point with the row's id is the row's own.
    obtain rfl : id' = id := tag.symm.trans named
    have equal : entry.row = row := by
      have first := List.mk_mem_zipIdx_iff_getElem?.mp numbered
      exact Option.some.inj (first.symm.trans (List.mk_mem_zipIdx_iff_getElem?.mp member))
    subst equal
    rw [rows] at isBefore
    obtain rfl := isBefore.unique one isPrevious
    have pushed := push_mem_pushesOf (List.fst_mem_of_mem_zipIdx numbered)
    obtain ⟨other, isOther, before⟩ := pushBefore_eq (List.nodup_dedup _) pushed
    obtain rfl := isOther.unique (distinct_of_nodup (List.nodup_dedup _)) isPush
    rw [change, filled]
    exact congrArg Change.stored (congrArg (entry.row.change _) before)

/-- **Filling the deltas changes nothing** where every row follows the table. -/
theorem fillDeltas_eq (one : OnePoint (table.map (·.row)))
    (follows : ∀ entry ∈ table, Follows (table.map (·.row)) entry) : fillDeltas table = table := by
  unfold fillDeltas
  simp only [join_fillPoints]
  calc _ = table.zipIdx.map Prod.fst := by
        refine List.map_congr_left fun numbered here => ?_
        obtain ⟨found, looked, same⟩ := find_fillPoints one here
          (follows numbered.1 (List.fst_mem_of_mem_zipIdx here))
        rw [looked]
        show StoredMetric.mk numbered.1.row found.2.stored.increase found.2.stored.samplesAdded = _
        rw [same]
    _ = table := List.zipIdx_map_fst 0 table

/-! ## The rows a load looks up -/

/-- **A load continues the stored history**: no series has two points of one moment, what is stored of
a host is earlier than what comes, and what comes follows the host's previous push and the series'
previous point within a day. -/
structure Continues (before incoming : List MetricRow) : Prop where
  one : OnePoint (before ++ incoming)
  later : ∀ old ∈ before, ∀ row ∈ incoming, old.hostIp = row.hostIp → old.timestamp < row.timestamp
  points : ∀ row ∈ incoming, ∀ previous, PreviousPoint (before ++ incoming) row (some previous) →
    row.timestamp ≤ previous.timestamp + day
  pushes : ∀ row ∈ incoming, ∀ push, PreviousPush (before ++ incoming) row (some push) →
    row.timestamp ≤ push.2 + day

theorem nodup_bounds (incoming : List MetricRow) : ((bounds incoming).map Bounds.series).Nodup :=
  nodup_groupBy fun _ _ => rfl

theorem bounds_of_mem (here : row ∈ incoming) : ∃ bound ∈ bounds incoming,
    bound.series = row.series ∧ (∃ first ∈ bound.first, first ≤ row.timestamp) ∧
      ∃ last ∈ bound.last, row.timestamp ≤ last := by
  have among : row.timestamp ∈ (incoming.filter fun one => one.series = row.series).map
      (·.timestamp) := List.mem_map_of_mem (List.mem_filter.mpr ⟨here, decide_eq_true rfl⟩)
  refine ⟨_, mem_groupBy.mpr ⟨row, here, rfl⟩, rfl, ?_, ?_⟩
  · obtain ⟨first, least⟩ := Option.isSome_iff_exists.mp (List.isSome_min?_of_mem among)
    exact ⟨first, least, (List.min?_eq_some_iff.mp least).2 _ among⟩
  · obtain ⟨last, greatest⟩ := Option.isSome_iff_exists.mp (List.isSome_max?_of_mem among)
    exact ⟨last, greatest, (List.max?_eq_some_iff.mp greatest).2 _ among⟩

theorem mem_bounds {bound : Bounds} {first : ℤ} (member : bound ∈ bounds incoming)
    (least : first ∈ bound.first) :
    ∃ row ∈ incoming, row.series = bound.series ∧ row.timestamp = first := by
  obtain ⟨one, -, rfl⟩ := mem_groupBy.mp member
  obtain ⟨row, chosen, moment⟩ := List.mem_map.mp (List.min?_eq_some_iff.mp least).1
  obtain ⟨there, same⟩ := List.mem_filter.mp chosen
  exact ⟨row, there, of_decide_eq_true same, moment⟩

theorem since_le (firsts : List (Option ℤ)) {first : ℤ} (member : some first ∈ firsts) :
    ∃ moment ∈ since firsts, moment + day ≤ first := by
  have among : first ∈ firsts.reduceOption := List.reduceOption_mem_iff.mpr member
  obtain ⟨least, found⟩ := Option.isSome_iff_exists.mp (List.isSome_min?_of_mem among)
  refine ⟨least - day, Option.mem_map.mpr ⟨least, found, rfl⟩, ?_⟩
  rw [sub_add_cancel]
  exact (List.min?_eq_some_iff.mp found).2 _ among

theorem mem_storedWithin {bound : Bounds} :
    (row, bound) ∈ storedWithin table incoming ↔
      (row ∈ table.map (·.row) ∧ bound ∈ bounds incoming ∧ bound.series = row.series) ∧
        (∃ last ∈ bound.last, row.timestamp < last) ∧
        ∃ moment ∈ since ((bounds incoming).map (·.first)), moment ≤ row.timestamp := by
  unfold storedWithin
  rw [List.mem_filter, mem_join, Bool.and_eq_true, Option.any_eq_true, Option.any_eq_true]
  simp only [decide_eq_true_iff, Option.mem_def]

theorem storedWithin_sublist (table : List StoredMetric) (incoming : List MetricRow) :
    ((storedWithin table incoming).map Prod.fst).Sublist (table.map (·.row)) :=
  (List.filter_sublist.map Prod.fst).trans (join_sublist (nodup_bounds incoming))

theorem stored_subperm : (stored table incoming).Subperm (table.map (·.row)) := by
  unfold stored
  have numbered : ((rowNumber (fun pair : MetricRow × Bounds => (pair.1.series, isLate pair))
      (fun pair => OrderDual.toDual pair.1.timestamp) (storedWithin table incoming)).map
        (·.1.1)).Perm ((storedWithin table incoming).map Prod.fst) := by
    have entries : ((rowNumber (fun pair : MetricRow × Bounds => (pair.1.series, isLate pair))
        (fun pair => OrderDual.toDual pair.1.timestamp) (storedWithin table incoming)).map
          Prod.fst).Perm (storedWithin table incoming) := window_perm
    have perm := entries.map Prod.fst
    rw [List.map_map] at perm
    exact perm
  exact (List.filter_sublist.map _).subperm.trans
    (numbered.subperm.trans (storedWithin_sublist table incoming).subperm)

theorem distinct_storedWithin (one : OnePoint (table.map (·.row) ++ incoming)) :
    Distinct (fun pair : MetricRow × Bounds => (pair.1.series, isLate pair))
      (fun pair => OrderDual.toDual pair.1.timestamp) (storedWithin table incoming) := by
  have fewer := ((storedWithin_sublist table incoming).trans
    (List.sublist_append_left _ incoming)).map fun row => (row.series, row.timestamp)
  refine List.Nodup.of_map (fun key => (key.1.1, OrderDual.ofDual key.2)) ?_
  rw [List.map_map]
  rw [List.map_map] at fewer
  exact one.sublist fewer

theorem mem_stored {previous : MetricRow} (continues : Continues (table.map (·.row)) incoming)
    (here : row ∈ incoming)
    (before : PreviousPoint (table.map (·.row) ++ incoming) row (some previous))
    (old : previous ∈ table.map (·.row)) : previous ∈ stored table incoming := by
  obtain ⟨-, series, earlier, last⟩ := before
  obtain ⟨bound, member, named, ⟨first, least, fromFirst⟩, final, greatest, toFinal⟩ :=
    bounds_of_mem here
  have within : (previous, bound) ∈ storedWithin table incoming := by
    refine mem_storedWithin.mpr ⟨⟨old, member, named.trans series.symm⟩, ?_, ?_⟩
    · exact ⟨final, greatest, earlier.trans_le toFinal⟩
    · obtain ⟨moment, isSince, aDay⟩ := since_le ((bounds incoming).map (·.first))
        (List.mem_map.mpr ⟨bound, member, least⟩)
      have near := continues.points row here previous
        ⟨List.mem_append_left _ old, series, earlier, last⟩
      exact ⟨moment, isSince, by omega⟩
  have first : ((previous, bound), 1) ∈ rowNumber (fun pair => (pair.1.series, isLate pair))
      (fun pair => OrderDual.toDual pair.1.timestamp) (storedWithin table incoming) := by
    refine rowNumber_one (distinct_storedWithin continues.one) within ?_
    rintro ⟨other, bound'⟩ member' same
    obtain ⟨⟨there, -⟩, -⟩ := mem_storedWithin.mp member'
    have alike : other.series = row.series := (congrArg Prod.fst same).trans series
    have host : other.hostIp = row.hostIp := congrArg Series.hostIp alike
    exact last other (List.mem_append_left _ there) alike
      (continues.later other there row here host)
  refine List.mem_map.mpr ⟨_, List.mem_filter.mpr ⟨first, ?_⟩, rfl⟩
  exact (Bool.or_eq_true _ _).mpr (Or.inr (decide_eq_true rfl))

/-! ## The pushes a load looks up -/

theorem hosts_of_mem (here : row ∈ incoming) : ∃ first, (row.hostIp, some first) ∈ hosts incoming ∧
    first ≤ row.timestamp ∧ ∃ one ∈ incoming, one.hostIp = row.hostIp ∧ one.timestamp = first := by
  obtain ⟨bound, member, named, ⟨least, isLeast, fromLeast⟩, -⟩ := bounds_of_mem here
  have host : bound.series.hostIp = row.hostIp := congrArg Series.hostIp named
  have chosen : bound ∈ (bounds incoming).filter fun one => one.series.hostIp = row.hostIp :=
    List.mem_filter.mpr ⟨member, decide_eq_true host⟩
  have among : least ∈ (((bounds incoming).filter fun one => one.series.hostIp = row.hostIp).map
      (·.first)).reduceOption :=
    List.reduceOption_mem_iff.mpr (List.mem_map.mpr ⟨bound, chosen, isLeast⟩)
  obtain ⟨first, found⟩ := Option.isSome_iff_exists.mp (List.isSome_min?_of_mem among)
  obtain ⟨attained, below⟩ := List.min?_eq_some_iff.mp found
  refine ⟨first, ?_, (below least among).trans fromLeast, ?_⟩
  · refine mem_groupBy.mpr ⟨bound, member, ?_⟩
    rw [host, found]
  · obtain ⟨other, picked, isFirst⟩ := List.mem_map.mp (List.reduceOption_mem_iff.mp attained)
    obtain ⟨there, same⟩ := List.mem_filter.mp picked
    obtain ⟨one, comes, alike, moment⟩ := mem_bounds there isFirst
    have oneHost : one.hostIp = other.series.hostIp := congrArg Series.hostIp alike
    exact ⟨one, comes, oneHost.trans (of_decide_eq_true same), moment⟩

theorem mem_pushWithin {host : String × Option ℤ} :
    (row, host) ∈ pushWithin table incoming ↔
      (row ∈ table.map (·.row) ∧ host ∈ hosts incoming ∧ host.1 = row.hostIp) ∧
        (∃ first ∈ host.2, row.timestamp < first) ∧
        ∃ moment ∈ since ((hosts incoming).map Prod.snd), moment ≤ row.timestamp := by
  unfold pushWithin
  rw [List.mem_filter, mem_join, Bool.and_eq_true, Option.any_eq_true, Option.any_eq_true]
  simp only [decide_eq_true_iff, Option.mem_def]

theorem mem_storedPushes : push ∈ storedPushes table incoming ↔
    ∃ pair ∈ pushWithin table incoming, pair.1.hostIp = push.1 ∧
      push.2 ∈ (((pushWithin table incoming).filter fun one => one.1.hostIp = push.1).map
        (·.1.timestamp)).max? := by
  rw [storedPushes, List.mem_filterMap]
  constructor
  · rintro ⟨group, member, named⟩
    obtain ⟨pair, there, rfl⟩ := mem_groupBy.mp member
    obtain ⟨moment, newest, rfl⟩ := Option.map_eq_some_iff.mp named
    exact ⟨pair, there, rfl, newest⟩
  · rintro ⟨pair, there, host, newest⟩
    refine ⟨_, mem_groupBy.mpr ⟨pair, there, rfl⟩, ?_⟩
    rw [host]
    exact Option.map_eq_some_iff.mpr ⟨push.2, newest, rfl⟩

theorem storedPushes_subset (member : push ∈ storedPushes table incoming) :
    push ∈ pushesOf (table.map (·.row)) := by
  obtain ⟨-, -, -, newest⟩ := mem_storedPushes.mp member
  obtain ⟨⟨row, host⟩, chosen, moment⟩ := List.mem_map.mp (List.max?_eq_some_iff.mp newest).1
  obtain ⟨within, same⟩ := List.mem_filter.mp chosen
  obtain ⟨⟨there, -⟩, -⟩ := mem_pushWithin.mp within
  exact mem_pushesOf.mpr ⟨row, there, Prod.ext (of_decide_eq_true same) moment⟩

theorem mem_storedPushes_of_previous (continues : Continues (table.map (·.row)) incoming)
    (here : row ∈ incoming)
    (before : PreviousPush (table.map (·.row) ++ incoming) row (some push))
    (old : push ∈ pushesOf (table.map (·.row))) : push ∈ storedPushes table incoming := by
  have near := continues.pushes row here push before
  obtain ⟨-, host, -, last⟩ := before
  obtain ⟨stored, there, rfl⟩ := mem_pushesOf.mp old
  obtain ⟨first, member, toRow, one, comes, sameHost, rfl⟩ := hosts_of_mem here
  have within : (stored, row.hostIp, some one.timestamp) ∈ pushWithin table incoming := by
    refine mem_pushWithin.mpr ⟨⟨there, member, host.symm⟩, ?_, ?_⟩
    · exact ⟨one.timestamp, rfl, continues.later stored there one comes (host.trans sameHost.symm)⟩
    · obtain ⟨moment, isSince, aDay⟩ := since_le ((hosts incoming).map Prod.snd)
        (List.mem_map.mpr ⟨_, member, rfl⟩)
      have near : row.timestamp ≤ stored.timestamp + day := near
      exact ⟨moment, isSince, by omega⟩
  refine mem_storedPushes.mpr ⟨_, within, rfl, List.max?_eq_some_iff.mpr ⟨?_, ?_⟩⟩
  · exact List.mem_map.mpr ⟨_, List.mem_filter.mpr ⟨within, decide_eq_true rfl⟩, rfl⟩
  · rintro moment member'
    obtain ⟨⟨other, host'⟩, chosen, rfl⟩ := List.mem_map.mp member'
    obtain ⟨within', same⟩ := List.mem_filter.mp chosen
    obtain ⟨⟨there', -⟩, -⟩ := mem_pushWithin.mp within'
    have alike : other.hostIp = row.hostIp := (of_decide_eq_true same).trans host
    exact last other.push (push_mem_pushesOf (List.mem_append_left _ there')) alike
      (continues.later other there' row here alike)

/-! ## What a load inserts -/

/-- The points the insert goes through: each row beside its push. -/
def insertPoints (table : List StoredMetric) (incoming : List MetricRow) : List (Point Bool) :=
  (points table incoming).map fun tagged =>
    ⟨tagged.1, tagged.2, pushBefore (pushes table incoming) tagged.2.push⟩

theorem metricsInsert_eq (table : List StoredMetric) (incoming : List MetricRow) :
    metricsInsert table incoming
      = ((changes (insertPoints table incoming)).filter (·.1)).map (·.2.stored) := by
  have distinct : ((pushes table incoming).map Prod.fst).Nodup :=
    (previousPushes_perm _).nodup_iff.mpr (List.nodup_dedup _)
  unfold metricsInsert insertPoints
  simp only [leftJoin_eq distinct, List.map_map]
  rfl

theorem row_insertPoints :
    (insertPoints table incoming).map (·.row) = incoming ++ stored table incoming := by
  unfold insertPoints points
  rw [List.map_map, List.map_append, List.map_map, List.map_map]
  exact congrArg₂ (· ++ ·) (List.map_id _) (List.map_id _)

theorem row_metricsInsert : ((metricsInsert table incoming).map (·.row)).Perm incoming := by
  have shape : (metricsInsert table incoming).map (·.row)
      = (((changes (insertPoints table incoming)).map fun entry =>
        (entry.1, entry.2.row)).filter Prod.fst).map Prod.snd := by
    rw [metricsInsert_eq, List.filter_map, List.map_map, List.map_map]
    rfl
  have tagged : (insertPoints table incoming).map (fun point => (point.tag, point.row))
      = points table incoming := by
    unfold insertPoints
    rw [List.map_map]
    exact List.map_id _
  have chosen : ((points table incoming).filter Prod.fst).map Prod.snd = incoming := by
    unfold points
    have kept : incoming.filter (Prod.fst ∘ fun row => (true, row)) = incoming :=
      List.filter_eq_self.mpr fun _ _ => rfl
    have dropped : (stored table incoming).filter (Prod.fst ∘ fun row => (false, row)) = [] :=
      List.filter_eq_nil_iff.mpr fun _ _ => Bool.false_ne_true
    rw [List.filter_append, List.filter_map, List.filter_map, kept, dropped, List.map_nil,
      List.append_nil, List.map_map]
    exact List.map_id _
  rw [shape]
  have perm := (((changes_perm (insertPoints table incoming)).filter Prod.fst).map Prod.snd)
  rw [tagged, chosen] at perm
  exact perm

theorem previousPoint_insert (continues : Continues (table.map (·.row)) incoming)
    (here : row ∈ incoming) {previous : Option MetricRow}
    (before : PreviousPoint (table.map (·.row) ++ incoming) row previous) :
    PreviousPoint (incoming ++ stored table incoming) row previous := by
  refine before.of_subset (fun other there => ?_) ?_
  · rcases List.mem_append.mp there with comes | old
    · exact List.mem_append_right _ comes
    · exact List.mem_append_left _ (stored_subperm.subset old)
  · rintro one rfl
    rcases List.mem_append.mp before.1 with old | comes
    · exact List.mem_append_right _ (mem_stored continues here before old)
    · exact List.mem_append_left _ comes

theorem previousPush_insert (continues : Continues (table.map (·.row)) incoming)
    (here : row ∈ incoming) {push : Option (String × ℤ)}
    (before : PreviousPush (table.map (·.row) ++ incoming) row push) :
    IsPrevious Prod.fst Prod.snd ((incoming.map (·.push) ++ storedPushes table incoming).dedup)
      row.push push := by
  refine before.of_subset (fun other there => ?_) ?_
  · rcases List.mem_append.mp (List.mem_dedup.mp there) with comes | old
    · obtain ⟨one, member, rfl⟩ := List.mem_map.mp comes
      exact push_mem_pushesOf (List.mem_append_right _ member)
    · obtain ⟨one, member, rfl⟩ := mem_pushesOf.mp (storedPushes_subset old)
      exact push_mem_pushesOf (List.mem_append_left _ member)
  · rintro one rfl
    obtain ⟨other, member, rfl⟩ := mem_pushesOf.mp before.1
    refine List.mem_dedup.mpr (List.mem_append.mpr ?_)
    rcases List.mem_append.mp member with old | comes
    · exact Or.inr (mem_storedPushes_of_previous continues here before (push_mem_pushesOf old))
    · exact Or.inl (List.mem_map_of_mem comes)

/-- **What a load inserts follows** the stored rows and its own. -/
theorem follows_insert (continues : Continues (table.map (·.row)) incoming)
    (inserted : entry ∈ metricsInsert table incoming) :
    entry.row ∈ incoming ∧ Follows (table.map (·.row) ++ incoming) entry := by
  rw [metricsInsert_eq] at inserted
  obtain ⟨⟨tag, change⟩, member, rfl⟩ := List.mem_map.mp inserted
  obtain ⟨changed, isIncoming⟩ := List.mem_filter.mp member
  have one : OnePoint (incoming ++ stored table incoming) :=
    continues.one.subperm (((List.subperm_append_left incoming).mpr stored_subperm).trans
      List.perm_append_comm.subperm)
  obtain ⟨point, there, previous, isPrevious, rfl, rfl⟩ :=
    mem_changes (row_insertPoints ▸ one) changed
  obtain ⟨⟨tag, row⟩, among, rfl⟩ := List.mem_map.mp there
  have here : row ∈ incoming := by
    rcases List.mem_append.mp among with comes | old
    · obtain ⟨row, comes, same⟩ := List.mem_map.mp comes
      exact (Prod.mk.inj same).2 ▸ comes
    · obtain ⟨row, old, same⟩ := List.mem_map.mp old
      exact absurd ((Prod.mk.inj same).1.trans isIncoming) Bool.false_ne_true
  refine ⟨here, ?_⟩
  -- The window and the join find what the rows stored and incoming have before the row.
  rw [row_insertPoints] at isPrevious
  obtain ⟨actual, isActual⟩ := exists_isPrevious continues.one (List.mem_append_right _ here)
  obtain rfl := isPrevious.unique one (previousPoint_insert continues here isActual)
  obtain ⟨push, isPush⟩ := exists_isPrevious (distinct_of_nodup (List.nodup_dedup _))
    (push_mem_pushesOf (List.mem_append_right (table.map (·.row)) here))
  have pushed : row.push ∈ (incoming.map (·.push) ++ storedPushes table incoming).dedup :=
    List.mem_dedup.mpr (List.mem_append_left _ (List.mem_map_of_mem here))
  obtain ⟨before, isBefore, found⟩ := pushBefore_eq (List.nodup_dedup _) pushed
  obtain rfl := isBefore.unique (distinct_of_nodup (List.nodup_dedup _))
    (previousPush_insert continues here isPush)
  exact ⟨previous, before, isActual, isPush,
    congrArg Change.stored (congrArg (row.change previous) found)⟩

theorem Follows.congr (follows : Follows rows entry) (same : ∀ row, row ∈ rows ↔ row ∈ more) :
    Follows more entry := by
  obtain ⟨previous, push, isPrevious, isPush, filled⟩ := follows
  refine ⟨previous, push, isPrevious.congr same, isPush.congr fun push => ?_, filled⟩
  rw [mem_pushesOf, mem_pushesOf]
  exact exists_congr fun row => and_congr_left fun _ => same row

/-- **A stored row keeps following** when later rows of its host are added. -/
theorem Follows.append (follows : Follows rows entry)
    (later : ∀ row ∈ more, row.hostIp = entry.row.hostIp → entry.row.timestamp < row.timestamp) :
    Follows (rows ++ more) entry := by
  obtain ⟨previous, push, isPrevious, isPush, filled⟩ := follows
  refine ⟨previous, push, isPrevious.append fun row there same => ?_, ?_, filled⟩
  · exact (later row there (congrArg Series.hostIp same)).le
  · have appended : IsPrevious Prod.fst Prod.snd (pushesOf rows ++ pushesOf more) entry.row.push
        push := by
      refine isPush.append fun push there same => ?_
      obtain ⟨row, member, rfl⟩ := mem_pushesOf.mp there
      exact (later row member same).le
    refine appended.congr fun push => ?_
    rw [List.mem_append, mem_pushesOf, mem_pushesOf, mem_pushesOf]
    constructor
    · rintro (⟨row, member, same⟩ | ⟨row, member, same⟩)
      · exact ⟨row, List.mem_append_left _ member, same⟩
      · exact ⟨row, List.mem_append_right _ member, same⟩
    · rintro ⟨row, member, same⟩
      rcases List.mem_append.mp member with old | new
      · exact Or.inl ⟨row, old, same⟩
      · exact Or.inr ⟨row, new, same⟩

end SuiteCloud.Telemetry.Deltas
