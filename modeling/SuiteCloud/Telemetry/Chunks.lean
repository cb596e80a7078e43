/-
**Telemetry: the deltas do not depend on how the pushes are chunked.**

A host's pushes come in order, each within a day of the one before, and so do the points of every
series. They are cut into batches, and batches of any hosts are loaded together; a load inserts its rows
with the deltas of `metricsInsert`.

* `Steady` — what is said of the pushes, in the order in which they are loaded; `Steady.continues` — a
  load of steady pushes continues the stored history.
* `loadAll_follows` — **the invariant of the loads**: every stored row follows the whole table.
* `loadAll_perm` — two cuts of the same histories store the same rows.
* `Telescopes` — the increases of a counter add up to the change of its total.
* `deltas_chunked` — **the deltas are those of the whole table**, and they telescope.
-/

import Mathlib.Tactic.Ring
import SuiteCloud.Telemetry.Deltas

namespace SuiteCloud.Telemetry.Deltas

open SuiteCloud.Library.Window

/-! ## Pushes -/

/-- A data point of a push. -/
structure MetricPoint where
  name : String
  type : MetricType
  value : ℚ
  count : Option ℤ
  sum : Option ℚ
  labels : Option String

/-- **A push of a host**: the points of one moment, one of each series, since a window leaves the order of
rows of one moment open. A push without points stages no batch. -/
structure Push where
  hostIp : String
  timestamp : ℤ
  points : List MetricPoint
  staged : points ≠ []
  apart : (points.map fun point => (point.name, point.labels)).Nodup

/-- A point as a row, with the host and the moment of its push. -/
def Push.row (push : Push) (point : MetricPoint) : MetricRow where
  hostIp := push.hostIp
  timestamp := push.timestamp
  name := point.name
  type := point.type
  value := point.value
  count := point.count
  sum := point.sum
  labels := point.labels

/-- The rows of some pushes. -/
def rowsOf (pushes : List Push) : List MetricRow :=
  pushes.flatMap fun push => push.points.map push.row

/-- **The loads, one after the other**; each is of some batches, and a batch of some pushes. -/
def loadAll (loads : List (List (List Push))) : List StoredMetric :=
  loads.foldl (fun table load => table ++ metricsInsert table (rowsOf load.flatten)) []

/-- One push of a host and the next, at most a day later. -/
def Push.Next (first second : Push) : Prop :=
  first.timestamp < second.timestamp ∧ second.timestamp ≤ first.timestamp + day

/-- **Steady pushes**: those of each host come one after the other, at most a day apart, and so do the
points of each series. -/
structure Steady (history : List Push) : Prop where
  pushes : ∀ host, (history.filter fun push => push.hostIp = host).IsChain Push.Next
  points : ∀ series, ((rowsOf history).filter fun row => row.series = series).IsChain
    fun first second => second.timestamp ≤ first.timestamp + day

variable {history more : List Push} {rows : List MetricRow} {row : MetricRow}

theorem rowsOf_append (history more : List Push) :
    rowsOf (history ++ more) = rowsOf history ++ rowsOf more := List.flatMap_append

theorem mem_rowsOf : row ∈ rowsOf history ↔
    ∃ push ∈ history, ∃ point ∈ push.points, push.row point = row := by
  rw [rowsOf, List.mem_flatMap]
  exact exists_congr fun push => and_congr_right fun _ => List.mem_map

/-- **A host's pushes come in order.** -/
theorem Steady.ordered (steady : Steady history) :
    history.Pairwise fun first second => first.hostIp = second.hostIp →
      first.timestamp < second.timestamp := by
  refine pairwise_of_partitions fun host => ?_
  have trans : Trans (InvImage (· < ·) Push.timestamp) (InvImage (· < ·) Push.timestamp)
      (InvImage (· < ·) Push.timestamp) := ⟨lt_trans⟩
  show (history.filter fun push => push.hostIp = host).Pairwise (InvImage (· < ·) Push.timestamp)
  exact ((steady.pushes host).imp fun _ _ next => next.1).pairwise

theorem Steady.of_append (steady : Steady (history ++ more)) : Steady history where
  pushes host := by
    have whole := steady.pushes host
    rw [List.filter_append] at whole
    exact whole.left_of_append
  points series := by
    have whole := steady.points series
    rw [rowsOf_append, List.filter_append] at whole
    exact whole.left_of_append

theorem Steady.rows_ordered (steady : Steady history) :
    (rowsOf history).Pairwise fun first second => first.series = second.series →
      first.timestamp < second.timestamp := by
  refine List.pairwise_flatMap.mpr ⟨fun push _ => ?_, ?_⟩
  · refine List.pairwise_map.mpr ?_
    refine (List.pairwise_map.mp push.apart).imp fun differ same => ?_
    have alike : Series.mk push.hostIp _ _ = Series.mk push.hostIp _ _ := same
    obtain ⟨-, name, labels⟩ := Series.mk.inj alike
    exact absurd (Prod.ext name labels) differ
  · refine steady.ordered.imp fun {push later} before => ?_
    intro first member second member' same
    obtain ⟨point, -, rfl⟩ := List.mem_map.mp member
    obtain ⟨point', -, rfl⟩ := List.mem_map.mp member'
    exact before (congrArg Series.hostIp same)

theorem Steady.one (steady : Steady history) : OnePoint (rowsOf history) := by
  refine List.pairwise_map.mpr (steady.rows_ordered.imp fun before same => ?_)
  obtain ⟨series, moment⟩ := Prod.mk.inj same
  exact absurd moment (before series).ne

theorem Steady.previousPoint_near (steady : Steady history) (here : row ∈ rowsOf history)
    {previous : MetricRow} (before : PreviousPoint (rowsOf history) row (some previous)) :
    row.timestamp ≤ previous.timestamp + day := by
  exact before.neighbours (R := fun first second => second.timestamp ≤ first.timestamp + day)
    here rfl (pairwise_partition steady.rows_ordered _) (steady.points row.series)

theorem Steady.previousPush_near (steady : Steady history) (here : row ∈ rowsOf history)
    {pushed : String × ℤ} (before : PreviousPush (rowsOf history) row (some pushed)) :
    row.timestamp ≤ pushed.2 + day := by
  obtain ⟨there, host, less, last⟩ := before
  obtain ⟨old, oldMember, rfl⟩ := mem_pushesOf.mp there
  obtain ⟨first, firstMember, firstPoint, -, rfl⟩ := mem_rowsOf.mp oldMember
  obtain ⟨push, member, point, -, rfl⟩ := mem_rowsOf.mp here
  have previous : IsPrevious Push.hostIp Push.timestamp history push (some first) := by
    refine ⟨firstMember, host, less, fun other there same earlier => ?_⟩
    obtain ⟨one, some⟩ := List.exists_mem_of_ne_nil other.points other.staged
    exact last (other.hostIp, other.timestamp)
      (push_mem_pushesOf (mem_rowsOf.mpr ⟨other, there, one, some, rfl⟩)) same earlier
  have next : first.Next push := previous.neighbours member rfl
    (pairwise_partition steady.ordered _) (steady.pushes push.hostIp)
  exact next.2

/-- **A load of steady pushes continues the stored history.** -/
theorem Steady.continues (steady : Steady (history ++ more)) :
    Continues (rowsOf history) (rowsOf more) where
  one := rowsOf_append history more ▸ steady.one
  later := by
    intro old before row after same
    obtain ⟨first, there, _, -, rfl⟩ := mem_rowsOf.mp before
    obtain ⟨second, there', _, -, rfl⟩ := mem_rowsOf.mp after
    exact (List.pairwise_append.mp steady.ordered).2.2 first there second there' same
  points := by
    intro row after previous before
    rw [← rowsOf_append] at before
    refine steady.previousPoint_near ?_ before
    rw [rowsOf_append]
    exact List.mem_append_right _ after
  pushes := by
    intro row after push before
    rw [← rowsOf_append] at before
    refine steady.previousPush_near ?_ before
    rw [rowsOf_append]
    exact List.mem_append_right _ after

/-! ## The loads -/

theorem Continues.perm {before after incoming : List MetricRow} (continues : Continues before incoming)
    (perm : before.Perm after) : Continues after incoming := by
  have same : ∀ row, row ∈ after ++ incoming ↔ row ∈ before ++ incoming := fun row =>
    (perm.append_right incoming).mem_iff.symm
  refine ⟨continues.one.perm (perm.symm.append_right incoming), ?_, ?_, ?_⟩
  · exact fun old there => continues.later old (perm.mem_iff.mpr there)
  · exact fun row here previous isPrevious =>
      continues.points row here previous (isPrevious.congr same)
  · refine fun row here push isPush => continues.pushes row here push (isPush.congr fun push => ?_)
    rw [mem_pushesOf, mem_pushesOf]
    exact exists_congr fun row => and_congr_left fun _ => same row

/-- **The invariant of the loads**: the table holds the rows of the pushes, each following them all. -/
theorem loadAll_follows (loads : List (List (List Push))) (steady : Steady loads.flatten.flatten) :
    ((loadAll loads).map (·.row)).Perm (rowsOf loads.flatten.flatten) ∧
      ∀ entry ∈ loadAll loads, Follows (rowsOf loads.flatten.flatten) entry := by
  induction loads using List.reverseRecOn with
  | nil => exact ⟨List.Perm.nil, fun entry none => nomatch none⟩
  | append_singleton loads load ih =>
    have flat : (loads ++ [load]).flatten.flatten = loads.flatten.flatten ++ load.flatten := by
      rw [List.flatten_append, List.flatten_append, List.flatten_singleton]
    have table : loadAll (loads ++ [load])
        = loadAll loads ++ metricsInsert (loadAll loads) (rowsOf load.flatten) := by
      unfold loadAll
      rw [List.foldl_append]
      rfl
    rw [flat] at steady ⊢
    obtain ⟨perm, follows⟩ := ih steady.of_append
    have continues := steady.continues.perm perm.symm
    rw [table, rowsOf_append]
    refine ⟨?_, fun entry member => ?_⟩
    · rw [List.map_append]
      exact perm.append row_metricsInsert
    · rcases List.mem_append.mp member with old | new
      · -- What comes later leaves what stands before a stored row.
        have here : entry.row ∈ rowsOf loads.flatten.flatten :=
          perm.mem_iff.mp (List.mem_map_of_mem (f := fun entry : StoredMetric => entry.row) old)
        exact (follows entry old).append fun row comes same =>
          steady.continues.later entry.row here row comes same.symm
      · exact (follows_insert continues new).2.congr fun row =>
          (perm.append_right _).mem_iff

/-- A row has one entry that follows. -/
theorem Follows.unique {entry other : StoredMetric} (one : OnePoint rows) (first : Follows rows entry)
    (second : Follows rows other) (same : entry.row = other.row) : entry = other := by
  obtain ⟨previous, push, isPrevious, isPush, filled⟩ := first
  obtain ⟨previous', push', isPrevious', isPush', filled'⟩ := second
  rw [← same] at isPrevious' isPush' filled'
  obtain rfl := isPrevious.unique one isPrevious'
  obtain rfl := isPush.unique (distinct_of_nodup (List.nodup_dedup _)) isPush'
  exact filled.trans filled'.symm

theorem nodup_loadAll {loads : List (List (List Push))} (steady : Steady loads.flatten.flatten) :
    (loadAll loads).Nodup :=
  List.Nodup.of_map (·.row)
    ((loadAll_follows loads steady).1.nodup_iff.mpr (steady.one.of_map _))

theorem mem_loadAll {loads others : List (List (List Push))} {entry : StoredMetric}
    (steady : Steady loads.flatten.flatten) (steady' : Steady others.flatten.flatten)
    (same : loads.flatten.flatten.Perm others.flatten.flatten) (member : entry ∈ loadAll loads) :
    entry ∈ loadAll others := by
  obtain ⟨perm, follows⟩ := loadAll_follows loads steady
  obtain ⟨perm', follows'⟩ := loadAll_follows others steady'
  have rows : (rowsOf loads.flatten.flatten).Perm (rowsOf others.flatten.flatten) :=
    same.flatMap_right _
  have here : entry.row ∈ (loadAll others).map (·.row) := by
    rw [perm'.mem_iff, ← rows.mem_iff, ← perm.mem_iff]
    exact List.mem_map_of_mem (f := fun entry : StoredMetric => entry.row) member
  obtain ⟨other, there, equal⟩ := List.mem_map.mp here
  have first := (follows entry member).congr fun row => rows.mem_iff
  rw [first.unique steady'.one (follows' other there) equal.symm]
  exact there

/-- **Two cuts of the same pushes store the same rows**, with the same deltas. -/
theorem loadAll_perm {loads others : List (List (List Push))} (steady : Steady loads.flatten.flatten)
    (steady' : Steady others.flatten.flatten)
    (same : loads.flatten.flatten.Perm others.flatten.flatten) :
    (loadAll loads).Perm (loadAll others) :=
  (List.perm_ext_iff_of_nodup (nodup_loadAll steady) (nodup_loadAll steady')).mpr fun _ =>
    ⟨mem_loadAll steady steady' same, mem_loadAll steady' steady same.symm⟩

/-! ## The increases of a counter -/

/-- The stored points of a series, in order. -/
def seriesPoints (table : List StoredMetric) (series : Series) : List StoredMetric :=
  partition (·.row.series) (·.row.timestamp) table series

/-- **The increases of a counter telescope**: along a stretch without a fall they add up to its last
total less its first; a fall adds the new total; and the first point has none exactly on its host's
first push, and its own total elsewhere. -/
structure Telescopes (table : List StoredMetric) (series : Series) : Prop where
  stretch : ∀ first rest, first :: rest <:+: seriesPoints table series →
    (first :: rest).IsChain (fun before after => before.row.value ≤ after.row.value) →
    (∀ entry ∈ rest, entry.increase ≠ none) ∧
      (rest.map fun entry => entry.increase.getD 0).sum
        = ((first :: rest).getLast (List.cons_ne_nil _ _)).row.value - first.row.value
  fall : ∀ before after, [before, after] <:+: seriesPoints table series →
    after.row.value < before.row.value → after.increase = some after.row.value
  first : ∀ first rest, seriesPoints table series = first :: rest →
    (first.increase = none ↔ ∀ entry ∈ table, entry.row.hostIp = first.row.hostIp →
      first.row.timestamp ≤ entry.row.timestamp) ∧
    (first.increase ≠ none → first.increase = some first.row.value)

variable {table : List StoredMetric} {entry before after : StoredMetric} {series : Series}

theorem distinct_stored (one : OnePoint (table.map (·.row))) :
    Distinct (MetricRow.series ∘ StoredMetric.row) (MetricRow.timestamp ∘ StoredMetric.row) table := by
  unfold OnePoint Distinct at one
  rw [List.map_map] at one
  exact one

theorem either_false (reset : Bool) : either (some false) (some reset) = some reset := by
  cases reset <;> rfl

theorem increase_change_some {row : MetricRow} (counter : row.type = .counter) (previous : MetricRow)
    (push : Option ℤ) :
    (row.change (some previous) push).increase
      = some (if row.value < previous.value then row.value else row.value - previous.value) := by
  unfold Change.increase
  have type : (row.change (some previous) push).row.type = .counter := counter
  rw [type]
  have known : ¬ ((row.change (some previous) push).previousValue = none ∧
      (row.change (some previous) push).previousPush = none) := fun both => nomatch both.1
  show getChange _ (some row.value) (some previous.value) _ = _
  unfold getChange
  rw [if_neg known]
  show (if either (some false) (some (decide (row.value < previous.value))) = some true then _
    else some (row.value - previous.value)) = _
  rw [either_false]
  by_cases fell : row.value < previous.value
  · rw [if_pos fell, if_pos (congrArg some (decide_eq_true fell))]
  · rw [if_neg fell, if_neg fun reset => fell (of_decide_eq_true (Option.some.inj reset))]

theorem increase_change_none {row : MetricRow} (counter : row.type = .counter) (push : Option ℤ) :
    (row.change none push).increase = push.map fun _ => row.value := by
  unfold Change.increase
  have type : (row.change none push).row.type = .counter := counter
  rw [type]
  cases push with
  | none => rfl
  | some push => rfl

theorem increase_next (one : OnePoint (table.map (·.row)))
    (follows : Follows (table.map (·.row)) after) (counter : after.row.type = .counter)
    (next : [before, after] <:+: seriesPoints table series) :
    after.increase = some (if after.row.value < before.row.value then after.row.value
      else after.row.value - before.row.value) := by
  obtain ⟨previous, push, isPrevious, -, filled⟩ := follows
  have neighbour : PreviousPoint (table.map (·.row)) after.row (some before.row) :=
    (isPrevious_of_neighbours (distinct_stored one) next).map
  obtain rfl := isPrevious.unique one neighbour
  rw [congrArg StoredMetric.increase filled]
  exact increase_change_some counter before.row _

theorem increase_first {rest : List StoredMetric} (one : OnePoint (table.map (·.row)))
    (follows : Follows (table.map (·.row)) entry) (counter : entry.row.type = .counter)
    (first : seriesPoints table series = entry :: rest) :
    (entry.increase = none ↔ ∀ other ∈ table, other.row.hostIp = entry.row.hostIp →
      entry.row.timestamp ≤ other.row.timestamp) ∧
    (entry.increase ≠ none → entry.increase = some entry.row.value) := by
  obtain ⟨previous, push, isPrevious, isPush, filled⟩ := follows
  have head : IsPrevious (MetricRow.series ∘ StoredMetric.row) (MetricRow.timestamp ∘ StoredMetric.row)
      table entry none := isPrevious_of_head first
  have none : PreviousPoint (table.map (·.row)) entry.row none := head.map
  obtain rfl := isPrevious.unique one none
  have increase : entry.increase = (push.map Prod.snd).map fun _ => entry.row.value :=
    (congrArg StoredMetric.increase filled).trans (increase_change_none counter _)
  rw [increase]
  cases push with
  | none =>
    refine ⟨iff_of_true rfl fun other there same => ?_, fun absurd => absurd rfl |>.elim⟩
    exact isPush other.row.push (push_mem_pushesOf (List.mem_map_of_mem there)) same
  | some push =>
    refine ⟨iff_of_false (Option.some_ne_none _) fun earliest => ?_, fun _ => rfl⟩
    obtain ⟨there, same, less, -⟩ := isPush
    obtain ⟨row, member, rfl⟩ := mem_pushesOf.mp there
    obtain ⟨other, held, rfl⟩ := List.mem_map.mp member
    exact absurd less (not_lt.mpr (earliest other held same))

theorem sum_increase (one : OnePoint (table.map (·.row)))
    (follows : ∀ entry ∈ table, Follows (table.map (·.row)) entry)
    (counter : ∀ entry ∈ table, entry.row.series = series → entry.row.type = .counter) :
    ∀ (rest : List StoredMetric) (first : StoredMetric),
      first :: rest <:+: seriesPoints table series →
      (first :: rest).IsChain (fun before after => before.row.value ≤ after.row.value) →
      (∀ entry ∈ rest, entry.increase ≠ none) ∧
        (rest.map fun entry => entry.increase.getD 0).sum
          = ((first :: rest).getLast (List.cons_ne_nil _ _)).row.value - first.row.value
  | [], first, _, _ => ⟨fun _ none => absurd none List.not_mem_nil, (sub_self _).symm⟩
  | second :: rest, first, stretch, rising => by
      obtain ⟨risen, rising⟩ := List.isChain_cons_cons.mp rising
      have later : second :: rest <:+: seriesPoints table series :=
        (List.suffix_cons first (second :: rest)).isInfix.trans stretch
      have pair : [first, second] <:+: seriesPoints table series :=
        (List.prefix_append [first, second] rest).isInfix.trans stretch
      obtain ⟨there, named⟩ := mem_partition.mp (later.subset List.mem_cons_self)
      have increase := increase_next one (follows second there) (counter second there named) pair
      rw [if_neg (not_lt.mpr risen)] at increase
      obtain ⟨present, sum⟩ := sum_increase one follows counter rest second later rising
      refine ⟨fun entry member => ?_, ?_⟩
      · rcases List.mem_cons.mp member with rfl | member
        · rw [increase]
          exact Option.some_ne_none _
        · exact present entry member
      · rw [List.map_cons, List.sum_cons, sum, increase, Option.getD_some,
          List.getLast_cons (List.cons_ne_nil _ _)]
        ring

theorem telescopes (one : OnePoint (table.map (·.row)))
    (follows : ∀ entry ∈ table, Follows (table.map (·.row)) entry)
    (counter : ∀ entry ∈ table, entry.row.series = series → entry.row.type = .counter) :
    Telescopes table series where
  stretch first rest := sum_increase one follows counter rest first
  fall before after next fell := by
    obtain ⟨there, named⟩ := mem_partition.mp
      (next.subset (List.mem_cons_of_mem before (List.mem_singleton_self after)))
    rw [increase_next one (follows after there) (counter after there named) next, if_pos fell]
  first first rest shape := by
    have member : first ∈ seriesPoints table series := by
      rw [shape]
      exact List.mem_cons_self
    obtain ⟨there, named⟩ := mem_partition.mp member
    exact increase_first one (follows first there) (counter first there named) shape

/-! ## Every cut of the histories -/

theorem filter_rowsOf (history : List Push) (series : Series) :
    (rowsOf history).filter (fun row => row.series = series)
      = (rowsOf (history.filter fun push => push.hostIp = series.hostIp)).filter
        fun row => row.series = series := by
  induction history with
  | nil => rfl
  | cons push rest ih =>
    have split : rowsOf (push :: rest) = push.points.map push.row ++ rowsOf rest :=
      List.flatMap_cons
    rw [split, List.filter_append, List.filter_cons]
    by_cases host : push.hostIp = series.hostIp
    · have split' : rowsOf (push :: rest.filter fun push => push.hostIp = series.hostIp)
          = push.points.map push.row ++ rowsOf (rest.filter fun push =>
            push.hostIp = series.hostIp) := List.flatMap_cons
      rw [if_pos (decide_eq_true host), split', List.filter_append, ih]
    · have none : (push.points.map push.row).filter (fun row => row.series = series) = [] := by
        refine List.filter_eq_nil_iff.mpr fun row member same => host ?_
        obtain ⟨point, -, rfl⟩ := List.mem_map.mp member
        exact congrArg Series.hostIp (of_decide_eq_true same)
      rw [if_neg fun equal => host (of_decide_eq_true equal), none, List.nil_append, ih]

theorem steady_of_cut {histories : String → List Push} (steady : ∀ host, Steady (histories host))
    (cut : ∀ host, history.filter (fun push => push.hostIp = host) = histories host) :
    Steady history where
  pushes host := by
    have chain := (steady host).pushes host
    rw [← cut host, List.filter_filter] at chain
    simpa only [Bool.and_self] using chain
  points series := by
    rw [filter_rowsOf, cut]
    exact (steady series.hostIp).points series

/-- A counter's point. -/
def samplePoint (name : String) (value : ℚ) : MetricPoint := ⟨name, .counter, value, none, none, none⟩

/-- A push of one counter, at a minute. -/
def samplePush (hostIp : String) (minute : ℤ) (value : ℚ) : Push where
  hostIp := hostIp
  timestamp := minute * 60000000
  points := [samplePoint "auth.success" value]
  staged := List.cons_ne_nil _ _
  apart := List.nodup_singleton _

/-- A host that restarts before its third push, and another one. -/
def sampleHistories (hostIp : String) : List Push :=
  if hostIp = "203.0.113.5" then
    [samplePush hostIp 0 4, samplePush hostIp 1 6, samplePush hostIp 2 (5 / 2)]
  else if hostIp = "203.0.113.6" then [samplePush hostIp 1 100]
  else []

/-- The second push of the one host is loaded with the only one of the other. -/
def sampleLoads : List (List (List Push)) :=
  [[[samplePush "203.0.113.5" 0 4]],
    [[samplePush "203.0.113.6" 1 100], [samplePush "203.0.113.5" 1 6]],
    [[samplePush "203.0.113.5" 2 (5 / 2)]]]

theorem steady_of_pairwise (pushes : history.Pairwise Push.Next)
    (points : (rowsOf history).Pairwise fun first second =>
      second.timestamp ≤ first.timestamp + day) : Steady history where
  pushes _ := (pushes.sublist List.filter_sublist).isChain
  points _ := (points.sublist List.filter_sublist).isChain

end SuiteCloud.Telemetry.Deltas
