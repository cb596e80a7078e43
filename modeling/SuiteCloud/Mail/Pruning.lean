/-
**A pruned report that comes back.**

`ReceivedReports` of `suite_cloud/mail/reports.py`: the hourly fetch copies the reports a cluster lists that are
not stored, the daily prune deletes the stored ones whose period is over for longer than the retention.

* `periodOver`, `Stored.expired` — what `prune_expired` filters by.
* `Action`, `step` — time, reports that arrive and are dropped, fetches one request and one insert at a time,
  prunes.
* `Settled` — no fetch that began after a prune has stored what it deleted, and no report has two rows.
* `Meets` — a prune finds the cluster's copy gone: a report without an expiry has been dropped, and the wall
  clock calls none expired too early.
* `pruned_never_returns` — **so it is in every run whose prunes meet that.**
* `pruned_report_returns` — a report without an expiry is deleted and comes straight back.
-/

import SuiteCloud.Mail.Reports
import Mathlib.Data.Int.Notation
import Mathlib.Data.List.Flatten
import Mathlib.Data.List.Perm.Basic
import Mathlib.Algebra.Order.Group.Int

namespace SuiteCloud.Mail.Pruning

open SuiteCloud.Library
open SuiteCloud.Mail.Reports (Kind Key)

/-! ## Reports and their rows -/

/-- An object a cluster lists; its dates are moments, in microseconds. -/
structure Object where
  key : Key
  dateRangeEnd : Option ℤ
  expiresAt : Option ℤ
  deriving DecidableEq

/-- A DMARC Report or TLS Report; its dates are what the wall clock of the system shows. -/
structure Stored where
  key : Key
  dateRangeEnd : Option ℤ
  expiresAt : Option ℤ
  deriving DecidableEq

/-- `local_datetime` of both dates, the wall clock being `clock`. -/
def Object.row (clock : ℤ → ℤ) (object : Object) : Stored :=
  ⟨object.key, object.dateRangeEnd.map clock, object.expiresAt.map clock⟩

/-- `DEFAULT_RETENTION_DAYS`. -/
def defaultRetentionDays : ℤ := 90

/-- `retention_days`. -/
def retentionDays (days : ℤ) : ℤ := if 0 < days then days else defaultRetentionDays

def microsecondsPerDay : ℤ := 86400000000

/-- The filter `["<", limit]`; `unset` is what it makes of a date that is not set. -/
def below (unset : Bool) (date : Option ℤ) (limit : ℤ) : Bool := date.elim unset (· < limit)

/-- The filter `expired`: the period ended longer ago than the retention. -/
def periodOver (unset : Bool) (dateRangeEnd : Option ℤ) (wall days : ℤ) : Bool :=
  below unset dateRangeEnd (wall - microsecondsPerDay * retentionDays days)

/-- One of the two filters `prune_expired` looks for names with. -/
def Stored.expired (unset : Bool) (wall days : ℤ) (row : Stored) : Bool :=
  periodOver unset row.dateRangeEnd wall days && (below unset row.expiresAt wall || row.expiresAt.isNone)

/-! ## Fetches and prunes -/

/-- A transaction of `fetch`, on one cluster. -/
structure Fetch where
  kind : Kind
  cluster : String
  /-- What had been pruned when it began. -/
  gone : List Key
  /-- `stored`, as its reads see it. -/
  stored : List Key
  /-- Those of `new_ids` that are still to be asked for. -/
  newIds : List Key
  /-- What `get_many` has collected and is still to be stored. -/
  objects : List Object
  /-- What it has inserted. -/
  rows : List Stored

structure State where
  now : ℤ
  /-- Every report that reached its cluster. -/
  arrived : List Object
  /-- The reports without an expiry that their cluster lists no more. -/
  dropped : List Key
  stored : List Stored
  fetches : List Fetch
  /-- What `prune_expired` has deleted. -/
  pruned : List Key
  /-- What a fetch has stored that had been pruned when it began. -/
  returned : List Key

/-- No report yet. -/
def State.start (now : ℤ) : State := ⟨now, [], [], [], [], [], []⟩

inductive Action
  | tick (elapsed : ℕ)
  | arrive (object : Object)
  /-- A cluster lists a report without an expiry no more. -/
  | drop (key : Key)
  /-- A fetch begins: its first reads. -/
  | begin (kind : Kind) (cluster : String)
  /-- `iter_ids`; pages may repeat an id and leave others out. -/
  | iterIds (fetch : ℕ) (ids : List Key)
  /-- One batch of `get_many`. -/
  | getMany (fetch batch : ℕ)
  /-- It stores its next object; the insert may raise. -/
  | store (fetch : ℕ) (raises : Bool)
  | commit (fetch : ℕ)
  | rollback (fetch : ℕ)
  /-- `prune_expired` under the configured retention. -/
  | prune (kind : Kind) (days : ℤ)

variable (clock : ℤ → ℤ) (unset : Bool) (s : State)

/-- The cluster lists the report: until it expires, or for as long as the cluster likes. -/
def State.lists (object : Object) : Bool :=
  decide (object.key ∉ s.dropped) && object.expiresAt.all (s.now < ·)

/-- The unique key is taken, by a row that is committed or one that is being inserted. -/
def State.taken (key : Key) : Bool :=
  s.stored.any (·.key = key) || s.fetches.any fun fetch => fetch.rows.any (·.key = key)

/-- `delete`, of the rows of one DocType that pass the filters. -/
def State.prune (kind : Kind) (days : ℤ) : State :=
  let goes := fun row : Stored => row.key.kind = kind ∧ row.expired unset (clock s.now) days
  { s with
    stored := s.stored.filter fun row => ¬ goes row
    pruned := ((s.stored.filter fun row => goes row).map Stored.key) ++ s.pruned }

/-- **One step.** -/
def step : Action → Option State
  | .tick elapsed => some { s with now := s.now + elapsed }
  | .arrive object =>
    if s.arrived.any (·.key = object.key) then none else some { s with arrived := object :: s.arrived }
  | .drop key =>
    if s.arrived.any fun object => object.key = key ∧ object.expiresAt.isSome then none
    else some { s with dropped := key :: s.dropped }
  | .begin kind cluster =>
    some { s with
      fetches := ⟨kind, cluster, s.pruned, s.stored.map Stored.key, [], [], []⟩ :: s.fetches }
  | .iterIds i ids =>
    (s.fetches[i]?).bind fun fetch =>
      if ids.all fun id => id.kind = fetch.kind ∧ id.cluster = fetch.cluster ∧
          s.arrived.any fun object => object.key = id ∧ s.lists object then
        let new := (ids.filter (· ∉ fetch.stored)).eraseDups
        some { s with fetches := s.fetches.set i { fetch with newIds := new } }
      else none
  | .getMany i batch =>
    (s.fetches[i]?).map fun fetch =>
      let answer := (fetch.newIds.take batch).filterMap fun id =>
        s.arrived.find? fun object => object.key = id ∧ s.lists object
      { s with
        fetches := s.fetches.set i
          { fetch with newIds := fetch.newIds.drop batch, objects := fetch.objects ++ answer } }
  | .store i raises =>
    (s.fetches[i]?).bind fun fetch =>
      match fetch.objects with
      | [] => none
      | object :: rest =>
        let inserted := if raises || s.taken object.key then [] else [object.row clock]
        some { s with
          fetches := s.fetches.set i { fetch with objects := rest, rows := inserted ++ fetch.rows } }
  | .commit i =>
    (s.fetches[i]?).map fun fetch =>
      let keys := fetch.rows.map Stored.key
      { s with
        stored := fetch.rows ++ s.stored
        fetches := s.fetches.eraseIdx i
        returned := keys.filter (· ∈ fetch.gone) ++ s.returned }
  | .rollback i => some { s with fetches := s.fetches.eraseIdx i }
  | .prune kind days => some (s.prune clock unset kind days)

/-! ## What is proved -/

/-- **No report that was pruned has been stored by a later fetch, and none is stored under two rows.** -/
def Settled : Prop := s.returned = [] ∧ (s.stored.map Stored.key).Nodup

/-- The cluster's copy is gone once the wall clock has the report expired; one without an expiry has been
dropped. -/
def CopyGone (object : Object) : Prop :=
  match object.expiresAt with
  | none => object.key ∈ s.dropped
  | some expiry => clock expiry < clock s.now → expiry ≤ s.now

/-- **A prune finds the cluster's copy gone**, of every stored report whose period is over. -/
def Meets : Action → Prop
  | .prune kind days => ∀ object ∈ s.arrived, object.key ∈ s.stored.map Stored.key →
      object.key.kind = kind →
        periodOver unset (object.dateRangeEnd.map clock) (clock s.now) days → CopyGone clock s object
  | _ => True

section Runs

variable {clock unset s} {s' : State} {object : Object} {i : ℕ} {fetch next : Fetch}

/-! ### The rows there are -/

/-- The rows that are committed and those that are being inserted. -/
def State.rows (s : State) : List Stored := s.stored ++ s.fetches.flatMap Fetch.rows

theorem mem_rows {row : Stored} :
    row ∈ s.rows ↔ row ∈ s.stored ∨ ∃ fetch ∈ s.fetches, row ∈ fetch.rows := by
  rw [State.rows, List.mem_append, List.mem_flatMap]

theorem taken_of_mem {row : Stored} (member : row ∈ s.rows) : s.taken row.key = true := by
  rw [State.taken, Bool.or_eq_true]
  rcases mem_rows.mp member with stored | ⟨fetch, there, held⟩
  · exact Or.inl (List.any_eq_true.mpr ⟨row, stored, decide_eq_true rfl⟩)
  · refine Or.inr (List.any_eq_true.mpr ⟨fetch, there, ?_⟩)
    exact List.any_eq_true.mpr ⟨row, held, decide_eq_true rfl⟩

theorem rows_erase {fetches : List Fetch} (here : fetches[i]? = some fetch) :
    List.Perm (fetch.rows ++ (fetches.eraseIdx i).flatMap Fetch.rows) (fetches.flatMap Fetch.rows) := by
  obtain ⟨bound, rfl⟩ := List.getElem?_eq_some_iff.mp here
  have together := (List.getElem_cons_eraseIdx_perm bound).flatMap_right Fetch.rows
  rwa [List.flatMap_cons] at together

theorem rows_set {fetches : List Fetch} {inserted : List Stored} (here : fetches[i]? = some fetch)
    (rows : next.rows = inserted ++ fetch.rows) :
    List.Perm ((fetches.set i next).flatMap Fetch.rows) (inserted ++ fetches.flatMap Fetch.rows) := by
  have bound := (List.getElem?_eq_some_iff.mp here).1
  have together := (List.set_perm_cons_eraseIdx bound next).flatMap_right Fetch.rows
  rw [List.flatMap_cons, rows, List.append_assoc] at together
  exact together.trans ((rows_erase here).append_left inserted)

/-! ### The invariant -/

/-- A report that was pruned when the fetch began is not among those it deals with. -/
structure Later (clock : ℤ → ℤ) (s : State) (fetch : Fetch) : Prop where
  gone : ∀ key ∈ fetch.gone, key ∈ s.pruned
  newIds : ∀ key ∈ fetch.newIds, key ∉ fetch.gone
  objects : ∀ object ∈ fetch.objects, object ∈ s.arrived ∧ object.key ∉ fetch.gone
  rows : ∀ row ∈ fetch.rows, row.key ∉ fetch.gone

/-- **The invariant**: what was pruned is listed no more, and no fetch that began later deals with it. -/
structure Inv (clock : ℤ → ℤ) (s : State) : Prop where
  keys : ∀ a ∈ s.arrived, ∀ b ∈ s.arrived, a.key = b.key → a = b
  pruned : ∀ key ∈ s.pruned, key ∈ s.arrived.map Object.key
  gone : ∀ object ∈ s.arrived, object.key ∈ s.pruned → s.lists object = false
  copies : ∀ row ∈ s.rows, ∃ object ∈ s.arrived, row = object.row clock
  fetches : ∀ fetch ∈ s.fetches, Later clock s fetch
  distinct : (s.rows.map Stored.key).Nodup
  returned : s.returned = []

theorem Inv.start (now : ℤ) : Inv clock (State.start now) where
  keys := List.forall_mem_nil _
  pruned := List.forall_mem_nil _
  gone := List.forall_mem_nil _
  copies := List.forall_mem_nil _
  fetches := List.forall_mem_nil _
  distinct := List.nodup_nil
  returned := rfl

theorem Inv.settled (inv : Inv clock s) : Settled s := by
  refine ⟨inv.returned, ?_⟩
  have distinct := inv.distinct
  rw [State.rows, List.map_append] at distinct
  exact (List.nodup_append.mp distinct).1

theorem lists_mono (time : s.now ≤ s'.now) (dropped : ∀ key ∈ s.dropped, key ∈ s'.dropped)
    (unlisted : s.lists object = false) : s'.lists object = false := by
  rw [Bool.eq_false_iff] at unlisted ⊢
  intro listed
  refine unlisted ?_
  rw [State.lists, Bool.and_eq_true, decide_eq_true_eq] at listed ⊢
  refine ⟨fun there => listed.1 (dropped _ there), ?_⟩
  cases expiry : object.expiresAt with
  | none => rfl
  | some moment =>
    have after := listed.2
    rw [expiry, Option.all_some, decide_eq_true_eq] at after
    rw [Option.all_some, decide_eq_true_eq]
    exact lt_of_le_of_lt time after

theorem Inv.frame (inv : Inv clock s) (time : s.now ≤ s'.now) (arrived : s'.arrived = s.arrived)
    (dropped : ∀ key ∈ s.dropped, key ∈ s'.dropped) (pruned : s'.pruned = s.pruned)
    (copies : ∀ row ∈ s'.rows, row ∈ s.rows ∨ ∃ object ∈ s.arrived, row = object.row clock)
    (fetches : ∀ fetch ∈ s'.fetches, Later clock s fetch)
    (distinct : (s'.rows.map Stored.key).Nodup) (returned : s'.returned = []) : Inv clock s' := by
  refine ⟨?_, ?_, ?_, ?_, ?_, distinct, returned⟩
  · rw [arrived]
    exact inv.keys
  · rw [arrived, pruned]
    exact inv.pruned
  · rw [arrived, pruned]
    exact fun object there gone => lists_mono time dropped (inv.gone object there gone)
  · intro row there
    rw [arrived]
    exact (copies row there).elim (inv.copies row) id
  · intro fetch there
    obtain ⟨gone, newIds, objects, rows⟩ := fetches fetch there
    refine ⟨?_, newIds, ?_, rows⟩
    · rw [pruned]
      exact gone
    · rw [arrived]
      exact objects

/-! ### The steps -/

theorem arrive_inv (inv : Inv clock s) (taken : step clock unset s (.arrive object) = some s') :
    Inv clock s' := by
  obtain ⟨fresh, result⟩ := Option.ite_none_left_eq_some.mp taken
  obtain rfl := Option.some.inj result
  have new : ∀ other ∈ s.arrived, other.key ≠ object.key := by
    intro other there same
    exact fresh (List.any_eq_true.mpr ⟨other, there, decide_eq_true same⟩)
  have unpruned : object.key ∉ s.pruned := by
    intro pruned
    obtain ⟨other, there, same⟩ := List.mem_map.mp (inv.pruned _ pruned)
    exact new other there same
  refine ⟨?_, ?_, ?_, ?_, ?_, inv.distinct, inv.returned⟩
  · intro a here b there same
    rcases List.mem_cons.mp here with rfl | old <;> rcases List.mem_cons.mp there with rfl | known
    · rfl
    · exact absurd same.symm (new b known)
    · exact absurd same (new a old)
    · exact inv.keys a old b known same
  · intro key pruned
    exact List.mem_cons_of_mem _ (inv.pruned key pruned)
  · intro other there pruned
    rcases List.mem_cons.mp there with rfl | there
    · exact absurd pruned unpruned
    · exact inv.gone other there pruned
  · intro row there
    obtain ⟨copied, among, same⟩ := inv.copies row there
    exact ⟨copied, List.mem_cons_of_mem _ among, same⟩
  · intro fetch there
    obtain ⟨gone, newIds, objects, rows⟩ := inv.fetches fetch there
    refine ⟨gone, newIds, ?_, rows⟩
    intro held member
    exact ⟨List.mem_cons_of_mem _ (objects held member).1, (objects held member).2⟩

theorem set_inv {inserted : List Stored} (inv : Inv clock s) (here : s.fetches[i]? = some fetch)
    (later : Later clock s next) (rows : next.rows = inserted ++ fetch.rows)
    (copies : ∀ row ∈ inserted, ∃ object ∈ s.arrived, row = object.row clock)
    (distinct : ((inserted ++ s.rows).map Stored.key).Nodup) :
    Inv clock { s with fetches := s.fetches.set i next } := by
  have perm : List.Perm (State.rows { s with fetches := s.fetches.set i next }) (inserted ++ s.rows) := by
    rw [State.rows, State.rows, ← List.append_assoc]
    refine ((rows_set here rows).append_left s.stored).trans ?_
    rw [← List.append_assoc]
    exact List.perm_append_comm.append_right _
  refine inv.frame le_rfl rfl (fun _ => id) rfl ?_ ?_ ?_ inv.returned
  · intro row there
    rcases List.mem_append.mp (perm.mem_iff.mp there) with new | old
    · exact Or.inr (copies row new)
    · exact Or.inl old
  · intro other there
    rcases List.mem_or_eq_of_mem_set there with old | rfl
    · exact inv.fetches other old
    · exact later
  · exact (perm.map Stored.key).nodup_iff.mpr distinct

theorem read_inv (inv : Inv clock s) (here : s.fetches[i]? = some fetch) (later : Later clock s next)
    (rows : next.rows = fetch.rows) : Inv clock { s with fetches := s.fetches.set i next } := by
  have appended : next.rows = [] ++ fetch.rows := rows
  exact set_inv inv here later appended nofun inv.distinct

theorem iterIds_inv {ids : List Key} (inv : Inv clock s)
    (taken : step clock unset s (.iterIds i ids) = some s') : Inv clock s' := by
  obtain ⟨fetch, here, answered⟩ := Option.bind_eq_some_iff.mp taken
  obtain ⟨listed, result⟩ := Option.ite_none_right_eq_some.mp answered
  obtain rfl := Option.some.inj result
  obtain ⟨gone, -, objects, rows⟩ := inv.fetches fetch (List.mem_of_getElem? here)
  refine read_inv inv here ⟨gone, ?_, objects, rows⟩ rfl
  intro key new pruned
  obtain ⟨answered, -⟩ := List.mem_filter.mp (List.mem_eraseDups.mp new)
  have among := List.all_eq_true.mp listed key answered
  obtain ⟨-, -, there⟩ := of_decide_eq_true among
  obtain ⟨object, arrived, found⟩ := List.any_eq_true.mp there
  obtain ⟨rfl, lists⟩ := of_decide_eq_true found
  -- What was pruned when the fetch began is listed no more.
  rw [inv.gone object arrived (gone _ pruned)] at lists
  cases lists

theorem getMany_inv {batch : ℕ} (inv : Inv clock s)
    (taken : step clock unset s (.getMany i batch) = some s') : Inv clock s' := by
  obtain ⟨fetch, here, rfl⟩ := Option.map_eq_some_iff.mp taken
  obtain ⟨gone, newIds, objects, rows⟩ := inv.fetches fetch (List.mem_of_getElem? here)
  refine read_inv inv here ⟨gone, fun key rest => newIds key (List.mem_of_mem_drop rest), ?_, rows⟩ rfl
  intro object held
  rcases List.mem_append.mp held with before | answered
  · exact objects object before
  · obtain ⟨id, asked, found⟩ := List.mem_filterMap.mp answered
    have passes := List.find?_some found
    obtain ⟨same, -⟩ := of_decide_eq_true passes
    refine ⟨List.mem_of_find?_eq_some found, ?_⟩
    rw [same]
    exact newIds id (List.mem_of_mem_take asked)

theorem store_inv {raises : Bool} (inv : Inv clock s)
    (taken : step clock unset s (.store i raises) = some s') : Inv clock s' := by
  obtain ⟨fetch, here, stored⟩ := Option.bind_eq_some_iff.mp taken
  obtain ⟨gone, newIds, objects, rows⟩ := inv.fetches fetch (List.mem_of_getElem? here)
  cases waiting : fetch.objects with
  | nil =>
    rw [waiting] at stored
    cases stored
  | cons object rest =>
    rw [waiting] at stored objects
    obtain rfl := Option.some.inj stored
    have rest_objects := fun other member => objects other (List.mem_cons_of_mem object member)
    obtain ⟨arrived, ungone⟩ := objects object List.mem_cons_self
    by_cases skipped : (raises || s.taken object.key) = true
    · rw [if_pos skipped]
      exact read_inv inv here ⟨gone, newIds, rest_objects, rows⟩ rfl
    · rw [if_neg skipped]
      refine set_inv inv here ⟨gone, newIds, rest_objects, ?_⟩ rfl ?_ ?_
      · intro row member
        rcases List.mem_cons.mp member with rfl | old
        · exact ungone
        · exact rows row old
      · intro row member
        obtain rfl := List.mem_singleton.mp member
        exact ⟨object, arrived, rfl⟩
      · refine List.nodup_cons.mpr ⟨?_, inv.distinct⟩
        intro there
        obtain ⟨row, member, same⟩ := List.mem_map.mp there
        have same : row.key = object.key := same
        have held := taken_of_mem member
        rw [same] at held
        exact skipped (Bool.or_eq_true_iff.mpr (Or.inr held))

theorem commit_inv (inv : Inv clock s) (taken : step clock unset s (.commit i) = some s') : Inv clock s' := by
  obtain ⟨fetch, here, rfl⟩ := Option.map_eq_some_iff.mp taken
  have later := inv.fetches fetch (List.mem_of_getElem? here)
  have perm : List.Perm (fetch.rows ++ s.stored ++ (s.fetches.eraseIdx i).flatMap Fetch.rows) s.rows := by
    refine (List.perm_append_comm.append_right _).trans ?_
    rw [List.append_assoc, State.rows]
    exact (rows_erase here).append_left s.stored
  refine inv.frame le_rfl rfl (fun _ => id) rfl ?_ ?_ ?_ ?_
  · exact fun row there => Or.inl (perm.mem_iff.mp there)
  · exact fun other there => inv.fetches other (List.mem_of_mem_eraseIdx there)
  · exact (perm.map Stored.key).nodup_iff.mpr inv.distinct
  · show List.filter _ (fetch.rows.map Stored.key) ++ s.returned = []
    rw [inv.returned, List.append_nil, List.filter_eq_nil_iff]
    intro key stored
    obtain ⟨row, member, rfl⟩ := List.mem_map.mp stored
    exact fun pruned => later.rows row member (of_decide_eq_true pruned)

theorem rollback_inv (inv : Inv clock s) :
    Inv clock { s with fetches := s.fetches.eraseIdx i } := by
  have fewer : List.Sublist (State.rows { s with fetches := s.fetches.eraseIdx i }) s.rows :=
    ((List.eraseIdx_sublist s.fetches i).flatMap Fetch.rows).append_left s.stored
  refine inv.frame le_rfl rfl (fun _ => id) rfl ?_ ?_ ?_ inv.returned
  · exact fun row there => Or.inl (fewer.subset there)
  · exact fun other there => inv.fetches other (List.mem_of_mem_eraseIdx there)
  · exact inv.distinct.sublist (fewer.map Stored.key)

theorem expired_cases {wall days : ℤ} {row : Stored} (goes : row.expired unset wall days = true) :
    periodOver unset row.dateRangeEnd wall days = true ∧
      ∀ expiry ∈ row.expiresAt, expiry < wall := by
  rw [Stored.expired, Bool.and_eq_true, Bool.or_eq_true] at goes
  refine ⟨goes.1, ?_⟩
  intro expiry set
  rw [Option.mem_def.mp set] at goes
  rcases goes.2 with before | unset
  · exact of_decide_eq_true before
  · cases unset

theorem prune_inv {kind : Kind} {days : ℤ} (inv : Inv clock s)
    (meets : Meets clock unset s (.prune kind days)) : Inv clock (s.prune clock unset kind days) := by
  have fewer : List.Sublist (s.prune clock unset kind days).rows s.rows :=
    List.filter_sublist.append_right (s.fetches.flatMap Fetch.rows)
  have unlisted : ∀ object ∈ s.arrived, ∀ row ∈ s.stored, row.key = object.key →
      row.key.kind = kind ∧ row.expired unset (clock s.now) days = true → s.lists object = false := by
    intro object arrived row stored same goes
    obtain ⟨copied, among, rfl⟩ := inv.copies row (mem_rows.mpr (Or.inl stored))
    obtain rfl := inv.keys copied among object arrived same
    obtain ⟨due, expired⟩ := expired_cases goes.2
    have gone := meets copied among (List.mem_map_of_mem stored) goes.1 due
    rw [Bool.eq_false_iff]
    intro lists
    rw [State.lists, Bool.and_eq_true, decide_eq_true_eq] at lists
    rw [CopyGone] at gone
    cases expiry : copied.expiresAt with
    | none =>
      rw [expiry] at gone
      exact lists.1 gone
    | some moment =>
      rw [expiry] at gone lists
      have passed : clock moment < clock s.now := by
        refine expired _ ?_
        rw [Object.row, expiry]
        rfl
      have ahead : s.now < moment := of_decide_eq_true lists.2
      exact absurd (gone passed) (not_le.mpr ahead)
  refine ⟨inv.keys, ?_, ?_, ?_, ?_, ?_, inv.returned⟩
  · intro key pruned
    rcases List.mem_append.mp pruned with new | old
    · obtain ⟨row, member, rfl⟩ := List.mem_map.mp new
      obtain ⟨copied, among, rfl⟩ := inv.copies row (mem_rows.mpr (Or.inl (List.mem_filter.mp member).1))
      exact List.mem_map_of_mem (f := Object.key) among
    · exact inv.pruned key old
  · intro object arrived pruned
    rcases List.mem_append.mp pruned with new | old
    · obtain ⟨row, member, same⟩ := List.mem_map.mp new
      obtain ⟨stored, goes⟩ := List.mem_filter.mp member
      exact unlisted object arrived row stored same (of_decide_eq_true goes)
    · exact inv.gone object arrived old
  · exact fun row there => inv.copies row (fewer.subset there)
  · intro fetch there
    obtain ⟨gone, newIds, objects, rows⟩ := inv.fetches fetch there
    exact ⟨fun key held => List.mem_append_right _ (gone key held), newIds, objects, rows⟩
  · exact inv.distinct.sublist (fewer.map Stored.key)

theorem step_inv {action : Action} (inv : Inv clock s) (meets : Meets clock unset s action)
    (taken : step clock unset s action = some s') : Inv clock s' := by
  cases action with
  | tick elapsed =>
    obtain rfl := Option.some.inj taken
    have time : s.now ≤ s.now + elapsed := Int.le_add_of_nonneg_right (Int.natCast_nonneg elapsed)
    exact inv.frame time rfl (fun _ => id) rfl (fun _ => Or.inl) inv.fetches inv.distinct inv.returned
  | arrive object => exact arrive_inv inv taken
  | drop key =>
    obtain ⟨-, result⟩ := Option.ite_none_left_eq_some.mp taken
    obtain rfl := Option.some.inj result
    exact inv.frame le_rfl rfl (fun _ => List.mem_cons_of_mem key) rfl (fun _ => Or.inl) inv.fetches
      inv.distinct inv.returned
  | begin kind cluster =>
    obtain rfl := Option.some.inj taken
    refine inv.frame le_rfl rfl (fun _ => id) rfl (fun _ => Or.inl) ?_ inv.distinct inv.returned
    intro fetch there
    rcases List.mem_cons.mp there with rfl | old
    · exact ⟨fun _ => id, nofun, nofun, nofun⟩
    · exact inv.fetches fetch old
  | iterIds i ids => exact iterIds_inv inv taken
  | getMany i batch => exact getMany_inv inv taken
  | store i raises => exact store_inv inv taken
  | commit i => exact commit_inv inv taken
  | rollback i =>
    obtain rfl := Option.some.inj taken
    exact rollback_inv inv
  | prune kind days =>
    obtain rfl := Option.some.inj taken
    exact prune_inv inv meets

end Runs

/-- **No pruned report comes back** in a run whose every prune finds the cluster's copies gone: a fetch that
began after it stores none of what it deleted, and no report is ever stored under two rows. -/
theorem pruned_never_returns {clock : ℤ → ℤ} {unset : Bool} {now : ℤ} {s : State}
    (reached : Reaches (step clock unset) (Meets clock unset) (State.start now) s) : Settled s := by
  have inv : Inv clock s :=
    reached.invariant (Inv clock) (Inv.start now) fun inv meets taken => step_inv inv meets taken
  exact inv.settled

instance decidableSettled (s : State) : Decidable (Settled s) := inferInstanceAs (Decidable (_ ∧ _))

instance decidableMeets (clock : ℤ → ℤ) (unset : Bool) (s : State) :
    ∀ action, Decidable (Meets clock unset s action)
  | .prune kind days =>
      have (object : Object) : Decidable (CopyGone clock s object) := by
        rw [CopyGone]
        split
        · exact inferInstance
        · exact inferInstance
      inferInstanceAs (Decidable (∀ object ∈ s.arrived, object.key ∈ s.stored.map Stored.key →
        object.key.kind = kind →
          periodOver unset (object.dateRangeEnd.map clock) (clock s.now) days → CopyGone clock s object))
  | .tick _ | .arrive _ | .drop _ | .begin _ _ | .iterIds _ _ | .getMany _ _ | .store _ _ | .commit _
  | .rollback _ => isTrue trivial

/-- A DMARC report about the first day. -/
def firstDay (id : String) (expiresAt : Option ℤ) : Object :=
  ⟨⟨.dmarc, "mail.bom.frappemail.com", id⟩, some microsecondsPerDay, expiresAt⟩

/-- One hourly fetch of a cluster that lists these. -/
def fetched (ids : List String) : List Action :=
  [.begin .dmarc "mail.bom.frappemail.com",
    .iterIds 0 (ids.map fun id => ⟨.dmarc, "mail.bom.frappemail.com", id⟩),
    .getMany 0 50, .store 0 false, .commit 0]

/-- A hundred days pass. -/
def hundredDays : Action := .tick 8640000000000

/-- The report expires after a month; it is fetched, pruned and not fetched again. -/
def expiring : List Action :=
  [Action.arrive (firstDay "a" (some (30 * microsecondsPerDay)))] ++ fetched ["a"] ++
    [hundredDays, .prune .dmarc 90, .begin .dmarc "mail.bom.frappemail.com", .iterIds 0 [], .commit 0]

theorem pruned_never_returns_expiring :
    ∃ s, run (step id false) (State.start 0) expiring = some s ∧ s.pruned.length = 1 ∧ Settled s := by
  have ends : (run (step id false) (State.start 0) expiring).map (fun s => s.pruned.length) = some 1 := by
    decide
  obtain ⟨s, done, pruned⟩ := Option.map_eq_some_iff.mp ends
  have meets : RunMeets (step id false) (Meets id false) (State.start 0) expiring := by decide
  exact ⟨s, done, pruned, pruned_never_returns (reaches_of_run meets done)⟩

/-- The cluster goes on listing a report without an expiry. -/
def unexpiring : List Action :=
  [Action.arrive (firstDay "a" none)] ++ fetched ["a"] ++ [hundredDays, .prune .dmarc 90] ++ fetched ["a"]

/-- **The report that was pruned comes straight back.** -/
theorem pruned_report_returns : ∃ s, Reaches (step id false) anyStep (State.start 0) s ∧
    s.returned = [⟨.dmarc, "mail.bom.frappemail.com", "a"⟩] ∧ ¬ Settled s := by
  have ends : (run (step id false) (State.start 0) unexpiring).map State.returned =
      some [⟨.dmarc, "mail.bom.frappemail.com", "a"⟩] := by
    decide
  obtain ⟨s, done, returned⟩ := Option.map_eq_some_iff.mp ends
  refine ⟨s, reaches_of_run (runMeets_of_forall fun _ _ _ => trivial) done, returned, fun settled => ?_⟩
  rw [settled.1] at returned
  cases returned

end SuiteCloud.Mail.Pruning
