/-
**Telemetry: from the webhook through the spool to the events table.**

`webhook` in `suite_cloud/api/telemetry`, `Spool` and `Warehouse.load`. Requests arrive in any order
between the loader's requests: it picks the oldest files, inserts the rows of those whose batch id the
table does not hold, and deletes them; it may die before any of these.

### What is proved

* `Stores` — **the invariant**: while no two staged requests share a batch id, each has its rows
  either in its file or, exactly once, in the table, and a file the loader is about to delete has
  been inserted.
* `loader_drains` — the loader, left alone, empties the spool.
* `batches_kept_apart` — when two ids differ, and, over every run whose requests are told apart by
  their ids, each accepted row is in the table exactly once when the loader has run.
* `streams_clash` — one list of events on two streams: the second file replaces the first, and the
  first request's row never reaches the table.
-/

import Mathlib.Data.List.Nodup
import Mathlib.Logic.Equiv.Basic
import SuiteCloud.Library.Transition
import SuiteCloud.Telemetry.Push

set_option linter.unusedSectionVars false

namespace SuiteCloud.Telemetry

open SuiteCloud.Library

/-! ## The system -/

/-- What one request may stage. -/
def webhookEventLimit : ℕ := 65536

/-- The most files loaded under one lock. -/
def batchFiles : ℕ := 200

/-- A request of a server, with the stream its URL names. -/
structure Request where
  server : Hostname
  stream : String
  events : List Json

/-- A refused request. -/
inductive InvalidInput
  | stream
  | events
  deriving DecidableEq

def InvalidInput.message : InvalidInput → String
  | .stream => "stream must be one of events, errors, warnings."
  | .events => s!"Send at most {webhookEventLimit} events in one request."

/-- A row of the events table, with the envelope of its batch. -/
structure StoredRow (Moment BatchId : Type) where
  batchId : BatchId
  hostname : String
  row : EventRow Moment

/-- Where a load stands. -/
inductive Load (BatchId : Type)
  | idle
  | picked (ids : List BatchId)
  | inserted (ids : List BatchId)

/-- The staged files, oldest first, the events table and the load; `staged` records the requests that
staged a batch, and no code reads it. -/
structure State (Moment BatchId : Type) where
  spool : List (BatchId × List (StoredRow Moment BatchId))
  table : List (StoredRow Moment BatchId)
  load : Load BatchId
  staged : List Request

def State.initial {Moment BatchId : Type} : State Moment BatchId := ⟨[], [], .idle, []⟩

variable {Moment BatchId : Type} [DecidableEq BatchId] (runtime : Runtime Moment BatchId)

/-- The id of a request's batch. -/
def Request.batchId (request : Request) : BatchId :=
  getBatchId runtime request.server.name request.events

/-- The rows of a request's batch, each carrying the envelope. -/
def Request.rows (request : Request) : List (StoredRow Moment BatchId) :=
  (getEventRows runtime ((streamEvents.lookup request.stream).getD []) request.events).1.map
    (⟨request.batchId runtime, request.server.name, ·⟩)

/-- `Spool.write`: the same batch id written again replaces the earlier file. -/
def write (spool : List (BatchId × List (StoredRow Moment BatchId))) (id : BatchId)
    (rows : List (StoredRow Moment BatchId)) : List (BatchId × List (StoredRow Moment BatchId)) :=
  spool.filter (·.1 ≠ id) ++ [(id, rows)]

/-- **`webhook`**: the rows are staged under the request's batch id, if there are any; the reply says
how many were accepted and how many events skipped. -/
def webhook (s : State Moment BatchId) (request : Request) :
    Except InvalidInput (State Moment BatchId × ℕ × ℕ) :=
  match streamEvents.lookup request.stream with
  | none => .error .stream
  | some listed =>
      if request.events.length > webhookEventLimit then .error .events
      else
        let rows := request.rows runtime
        let problems := (getEventRows runtime listed request.events).2
        let s' := if rows = [] then s else
          { s with
            spool := write s.spool (request.batchId runtime) rows
            staged := request :: s.staged }
        .ok (s', rows.length, problems.length)

/-- **`Warehouse.load`**: the rows of the files whose batch the table does not hold yet. -/
def incoming (s : State Moment BatchId) (ids : List BatchId) : List (StoredRow Moment BatchId) :=
  (s.spool.filter fun file => file.1 ∈ ids ∧ file.1 ∉ s.table.map (·.batchId)).flatMap Prod.snd

inductive Action
  | webhook (request : Request)
  /-- `get_loadable`: the next chunk of staged files. -/
  | pick
  /-- The insert statement, which reads the files and commits. -/
  | insert
  /-- The loaded files are deleted. -/
  | delete
  /-- The load fails, or its worker dies. -/
  | loadFails

/-- **One step of the system.** -/
def step (s : State Moment BatchId) : Action → Option (State Moment BatchId)
  | .webhook request =>
      match webhook runtime s request with
      | .ok (s', _, _) => some s'
      | .error _ => some s
  | .pick =>
      match s.load with
      | .idle => some { s with load := .picked ((s.spool.take batchFiles).map Prod.fst) }
      | _ => none
  | .insert =>
      match s.load with
      | .picked ids => some { s with table := s.table ++ incoming s ids, load := .inserted ids }
      | _ => none
  | .delete =>
      match s.load with
      | .inserted ids => some { s with spool := s.spool.filter (·.1 ∉ ids), load := .idle }
      | _ => none
  | .loadFails => some { s with load := .idle }

/-! ## The rows of one batch -/

/-- The rows a table holds of one batch. -/
def held (table : List (StoredRow Moment BatchId)) (id : BatchId) :
    List (StoredRow Moment BatchId) :=
  table.filter (·.batchId = id)

theorem held_append (table more : List (StoredRow Moment BatchId)) (id : BatchId) :
    held (table ++ more) id = held table id ++ held more id :=
  List.filter_append table more

theorem held_eq_nil {table : List (StoredRow Moment BatchId)} {id : BatchId} :
    held table id = [] ↔ id ∉ table.map (·.batchId) := by
  unfold held
  rw [List.filter_eq_nil_iff, List.mem_map]
  constructor
  · rintro none ⟨row, member, same⟩
    exact none row member (by simpa using same)
  · intro none row member same
    exact none ⟨row, member, by simpa using same⟩

/-- A file's rows all carry its batch id. -/
def Tagged (files : List (BatchId × List (StoredRow Moment BatchId))) : Prop :=
  ∀ file ∈ files, ∀ row ∈ file.2, row.batchId = file.1

theorem held_tagged {rows : List (StoredRow Moment BatchId)} {id : BatchId}
    (tagged : ∀ row ∈ rows, row.batchId = id) : held rows id = rows :=
  List.filter_eq_self.mpr fun row member => by simpa using tagged row member

theorem held_other {files : List (BatchId × List (StoredRow Moment BatchId))} {id : BatchId}
    (tagged : Tagged files) (others : ∀ file ∈ files, file.1 ≠ id) :
    held (files.flatMap Prod.snd) id = [] := by
  rw [held_eq_nil]
  intro member
  obtain ⟨row, among, rfl⟩ := List.mem_map.mp member
  obtain ⟨file, there, inside⟩ := List.mem_flatMap.mp among
  exact others file there (tagged file there row inside).symm

theorem held_file {files : List (BatchId × List (StoredRow Moment BatchId))} {id : BatchId}
    {rows : List (StoredRow Moment BatchId)} (tagged : Tagged files)
    (nodup : (files.map Prod.fst).Nodup) (member : (id, rows) ∈ files) :
    held (files.flatMap Prod.snd) id = rows := by
  induction files with
  | nil => cases member
  | cons file rest ih =>
    have restTagged : Tagged rest := fun other there => tagged other (List.mem_cons_of_mem _ there)
    obtain ⟨fresh, restNodup⟩ := List.nodup_cons.mp nodup
    rw [List.flatMap_cons, held_append]
    rcases List.mem_cons.mp member with rfl | member
    · have others : ∀ other ∈ rest, other.1 ≠ id := by
        intro other there same
        exact fresh (List.mem_map.mpr ⟨other, there, same⟩)
      rw [held_other restTagged others, List.append_nil]
      exact held_tagged (tagged (id, rows) List.mem_cons_self)
    · have different : file.1 ≠ id := by
        rintro rfl
        exact fresh (List.mem_map.mpr ⟨_, member, rfl⟩)
      have none : held file.2 id = [] := by
        rw [held_eq_nil]
        intro among
        obtain ⟨row, inside, rfl⟩ := List.mem_map.mp among
        exact different (tagged file List.mem_cons_self row inside).symm
      rw [none, List.nil_append]
      exact ih restTagged restNodup member

/-! ## The invariant -/

/-- What a load that is under way knows of its files. -/
def Loads (s : State Moment BatchId) : Prop :=
  match s.load with
  | .idle => True
  | .picked ids => ∀ id ∈ ids, ∃ request ∈ s.staged, request.batchId runtime = id
  | .inserted ids => ∀ id ∈ ids, ∃ request ∈ s.staged, request.batchId runtime = id ∧
      held s.table id = request.rows runtime

/-- **Every staged request's rows are kept**: in its file or, once, in the table. -/
structure Stores (s : State Moment BatchId) : Prop where
  apart : ∀ first ∈ s.staged, ∀ second ∈ s.staged,
    first.batchId runtime = second.batchId runtime → first = second
  nonempty : ∀ request ∈ s.staged, request.rows runtime ≠ []
  files : ∀ file ∈ s.spool, ∃ request ∈ s.staged,
    file = (request.batchId runtime, request.rows runtime)
  nodup : (s.spool.map Prod.fst).Nodup
  rows : ∀ id, held s.table id = [] ∨ ∃ request ∈ s.staged, request.batchId runtime = id ∧
    held s.table id = request.rows runtime
  kept : ∀ request ∈ s.staged, (request.batchId runtime, request.rows runtime) ∈ s.spool ∨
    held s.table (request.batchId runtime) = request.rows runtime
  loads : Loads runtime s

variable {runtime} {s s' : State Moment BatchId}

theorem tagged_rows (request : Request) :
    ∀ row ∈ request.rows runtime, row.batchId = request.batchId runtime := by
  intro row member
  obtain ⟨event, -, rfl⟩ := List.mem_map.mp member
  rfl

theorem Stores.tagged (stores : Stores runtime s) : Tagged s.spool := by
  intro file member
  obtain ⟨request, -, rfl⟩ := stores.files file member
  exact tagged_rows request

theorem Stores.held_eq (stores : Stores runtime s) {request : Request}
    (staged : request ∈ s.staged) (some : held s.table (request.batchId runtime) ≠ []) :
    held s.table (request.batchId runtime) = request.rows runtime := by
  obtain ⟨other, member, same, rows⟩ := (stores.rows _).resolve_left some
  rw [rows, stores.apart other member request staged same]

theorem Stores.held_insert (stores : Stores runtime s) (ids : List BatchId) {request : Request}
    (staged : request ∈ s.staged) :
    held (s.table ++ incoming s ids) (request.batchId runtime) = request.rows runtime ∨
      (held (s.table ++ incoming s ids) (request.batchId runtime)
          = held s.table (request.batchId runtime) ∧
        ¬ (held s.table (request.batchId runtime) = [] ∧ request.batchId runtime ∈ ids ∧
          (request.batchId runtime, request.rows runtime) ∈ s.spool)) := by
  have tagged : Tagged (s.spool.filter fun file => file.1 ∈ ids ∧
      file.1 ∉ s.table.map (·.batchId)) := fun file member =>
    stores.tagged file (List.mem_of_mem_filter member)
  have nodup : ((s.spool.filter fun file => file.1 ∈ ids ∧
      file.1 ∉ s.table.map (·.batchId)).map Prod.fst).Nodup :=
    stores.nodup.sublist (List.filter_sublist.map Prod.fst)
  rw [held_append]
  by_cases loaded : held s.table (request.batchId runtime) = [] ∧ request.batchId runtime ∈ ids ∧
      (request.batchId runtime, request.rows runtime) ∈ s.spool
  · left
    rw [loaded.1, List.nil_append]
    refine held_file tagged nodup (List.mem_filter.mpr ⟨loaded.2.2, ?_⟩)
    exact decide_eq_true ⟨loaded.2.1, held_eq_nil.mp loaded.1⟩
  · refine Or.inr ⟨?_, loaded⟩
    rw [incoming, held_other tagged, List.append_nil]
    intro file member same
    obtain ⟨there, chosen⟩ := List.mem_filter.mp member
    have wanted := of_decide_eq_true chosen
    rw [same] at wanted
    obtain ⟨other, member', rfl⟩ := stores.files file there
    obtain rfl := stores.apart other member' request staged same
    exact loaded ⟨held_eq_nil.mpr wanted.2, wanted.1, there⟩

theorem Stores.held_insert_unstaged (stores : Stores runtime s) (ids : List BatchId) {id : BatchId}
    (unstaged : ∀ request ∈ s.staged, request.batchId runtime ≠ id) :
    held (s.table ++ incoming s ids) id = [] := by
  have before : held s.table id = [] := by
    rcases stores.rows id with none | ⟨request, staged, same, -⟩
    · exact none
    · exact absurd same (unstaged request staged)
  rw [held_append, before, List.nil_append]
  refine held_other (fun file member => stores.tagged file (List.mem_of_mem_filter member)) ?_
  intro file member same
  obtain ⟨request, staged, rfl⟩ := stores.files file (List.mem_of_mem_filter member)
  exact unstaged request staged same

/-! ## The steps -/

/-- **The requests of a run are told apart by their ids**: one that stages rows is an earlier request
sent again, or it differs from each earlier one of its server in the number of events or in the text
of the first and the last id. -/
def toldApart (runtime : Runtime Moment BatchId) (s : State Moment BatchId) : Action → Prop
  | .webhook request => ∀ earlier ∈ s.staged, earlier.server = request.server →
      request.rows runtime ≠ [] → earlier = request ∨
        earlier.events.length ≠ request.events.length ∨
        idsText runtime earlier.events ≠ idsText runtime request.events
  | _ => True

theorem mem_write {spool : List (BatchId × List (StoredRow Moment BatchId))} {id : BatchId}
    {rows : List (StoredRow Moment BatchId)} {file : BatchId × List (StoredRow Moment BatchId)} :
    file ∈ write spool id rows ↔ (file ∈ spool ∧ file.1 ≠ id) ∨ file = (id, rows) := by
  unfold write
  rw [List.mem_append, List.mem_filter, List.mem_singleton, decide_eq_true_eq]

theorem nodup_write {spool : List (BatchId × List (StoredRow Moment BatchId))} {id : BatchId}
    {rows : List (StoredRow Moment BatchId)} (nodup : (spool.map Prod.fst).Nodup) :
    ((write spool id rows).map Prod.fst).Nodup := by
  unfold write
  rw [List.map_append, List.nodup_append]
  refine ⟨nodup.sublist (List.filter_sublist.map Prod.fst), List.nodup_singleton _, ?_⟩
  rintro first member second other rfl
  obtain ⟨file, among, rfl⟩ := List.mem_map.mp member
  obtain ⟨-, different⟩ := List.mem_filter.mp among
  simp only [List.map_cons, List.map_nil, List.mem_singleton] at other
  exact of_decide_eq_true different other

/-- The load under way still knows its files when a request is staged. -/
theorem Loads.staged {request : Request} {spool : List (BatchId × List (StoredRow Moment BatchId))}
    (loads : Loads runtime s) :
    Loads runtime { s with spool := spool, staged := request :: s.staged } := by
  unfold Loads at loads ⊢
  cases here : s.load with
  | idle => trivial
  | picked ids =>
    rw [here] at loads
    intro id member
    obtain ⟨other, staged, same⟩ := loads id member
    exact ⟨other, List.mem_cons_of_mem _ staged, same⟩
  | inserted ids =>
    rw [here] at loads
    intro id member
    obtain ⟨other, staged, same⟩ := loads id member
    exact ⟨other, List.mem_cons_of_mem _ staged, same⟩

theorem stores_staged {request : Request} (injective : Function.Injective runtime.uuid5)
    (stores : Stores runtime s) (apart : toldApart runtime s (.webhook request))
    (some : request.rows runtime ≠ []) :
    Stores runtime { s with
      spool := write s.spool (request.batchId runtime) (request.rows runtime)
      staged := request :: s.staged } := by
  have isNew : ∀ earlier ∈ s.staged,
      earlier.batchId runtime = request.batchId runtime → earlier = request := by
    intro earlier staged same
    obtain ⟨server, lengths, ids⟩ := (getBatchId_eq_iff runtime injective).mp same
    rcases apart earlier staged server some with equal | differ | differ
    · exact equal
    · exact absurd lengths differ
    · exact absurd ids differ
  refine ⟨?_, ?_, ?_, nodup_write stores.nodup, ?_, ?_, stores.loads.staged⟩
  · intro first member second member' same
    rcases List.mem_cons.mp member with rfl | staged <;>
      rcases List.mem_cons.mp member' with rfl | staged'
    · rfl
    · exact (isNew second staged' same.symm).symm
    · exact isNew first staged same
    · exact stores.apart first staged second staged' same
  · intro other member
    rcases List.mem_cons.mp member with rfl | member
    · exact some
    · exact stores.nonempty other member
  · intro file member
    rcases mem_write.mp member with ⟨there, -⟩ | rfl
    · obtain ⟨other, staged, rfl⟩ := stores.files file there
      exact ⟨other, List.mem_cons_of_mem _ staged, rfl⟩
    · exact ⟨request, List.mem_cons_self, rfl⟩
  · intro id
    refine (stores.rows id).imp_right ?_
    rintro ⟨other, staged, same⟩
    exact ⟨other, List.mem_cons_of_mem _ staged, same⟩
  · intro other member
    by_cases same : other.batchId runtime = request.batchId runtime
    · have equal : other = request := by
        rcases List.mem_cons.mp member with equal | staged
        · exact equal
        · exact isNew other staged same
      subst equal
      exact Or.inl (mem_write.mpr (Or.inr rfl))
    · have staged : other ∈ s.staged := by
        rcases List.mem_cons.mp member with rfl | staged
        · exact absurd rfl same
        · exact staged
      refine (stores.kept other staged).imp_left ?_
      exact fun there => mem_write.mpr (Or.inl ⟨there, same⟩)

theorem stores_insert {ids : List BatchId} (stores : Stores runtime s) (here : s.load = .picked ids) :
    Stores runtime { s with table := s.table ++ incoming s ids, load := .inserted ids } := by
  have picked := stores.loads
  unfold Loads at picked
  rw [here] at picked
  have unlessEmpty : ∀ request ∈ s.staged, held s.table (request.batchId runtime) ≠ [] →
      held (s.table ++ incoming s ids) (request.batchId runtime) = request.rows runtime := by
    intro request staged present
    rcases stores.held_insert ids staged with loaded | ⟨same, -⟩
    · exact loaded
    · rw [same]
      exact stores.held_eq staged present
  refine ⟨stores.apart, stores.nonempty, stores.files, stores.nodup, ?_, ?_, ?_⟩
  · intro id
    by_cases known : ∃ request ∈ s.staged, request.batchId runtime = id
    · obtain ⟨request, staged, rfl⟩ := known
      by_cases present : held s.table (request.batchId runtime) = []
      · rcases stores.held_insert ids staged with loaded | ⟨same, -⟩
        · exact Or.inr ⟨request, staged, rfl, loaded⟩
        · exact Or.inl (same.trans present)
      · exact Or.inr ⟨request, staged, rfl, unlessEmpty request staged present⟩
    · refine Or.inl (stores.held_insert_unstaged ids ?_)
      exact fun request staged same => known ⟨request, staged, same⟩
  · intro request staged
    refine (stores.kept request staged).imp_right fun present => ?_
    refine unlessEmpty request staged ?_
    rw [present]
    exact stores.nonempty request staged
  · intro id member
    obtain ⟨request, staged, rfl⟩ := picked id member
    refine ⟨request, staged, rfl, ?_⟩
    by_cases present : held s.table (request.batchId runtime) = []
    · rcases stores.held_insert ids staged with loaded | ⟨-, stays⟩
      · exact loaded
      · -- An empty batch that was picked has its file, so the insert added it.
        rcases stores.kept request staged with file | rows
        · exact absurd ⟨present, member, file⟩ stays
        · exact absurd (rows.symm.trans present) (stores.nonempty request staged)
    · exact unlessEmpty request staged present

theorem stores_delete {ids : List BatchId} (stores : Stores runtime s)
    (here : s.load = .inserted ids) :
    Stores runtime { s with spool := s.spool.filter (·.1 ∉ ids), load := .idle } := by
  have inserted := stores.loads
  unfold Loads at inserted
  rw [here] at inserted
  refine ⟨stores.apart, stores.nonempty, ?_, ?_, stores.rows, ?_, trivial⟩
  · exact fun file member => stores.files file (List.mem_of_mem_filter member)
  · exact stores.nodup.sublist (List.filter_sublist.map Prod.fst)
  · intro request staged
    by_cases member : request.batchId runtime ∈ ids
    · obtain ⟨other, staged', same, rows⟩ := inserted _ member
      obtain rfl := stores.apart other staged' request staged same
      exact Or.inr rows
    · refine (stores.kept request staged).imp_left fun there => ?_
      exact List.mem_filter.mpr ⟨there, decide_eq_true member⟩

theorem stores_step {action : Action} (injective : Function.Injective runtime.uuid5)
    (stores : Stores runtime s) (apart : toldApart runtime s action)
    (taken : step runtime s action = some s') : Stores runtime s' := by
  cases action with
  | webhook request =>
    simp only [step, webhook] at taken
    cases listed : streamEvents.lookup request.stream with
    | none =>
      simp only [listed, Option.some.injEq] at taken
      exact taken ▸ stores
    | some names =>
      simp only [listed] at taken
      by_cases tooMany : request.events.length > webhookEventLimit
      · simp only [if_pos tooMany, Option.some.injEq] at taken
        exact taken ▸ stores
      · simp only [if_neg tooMany, Option.some.injEq] at taken
        subst taken
        by_cases none : request.rows runtime = []
        · rw [if_pos none]
          exact stores
        · rw [if_neg none]
          exact stores_staged injective stores apart none
  | pick =>
    cases here : s.load with
    | idle =>
      simp only [step, here, Option.some.injEq] at taken
      subst taken
      refine ⟨stores.apart, stores.nonempty, stores.files, stores.nodup, stores.rows, stores.kept, ?_⟩
      intro id member
      obtain ⟨file, among, rfl⟩ := List.mem_map.mp member
      obtain ⟨request, staged, rfl⟩ := stores.files file (List.mem_of_mem_take among)
      exact ⟨request, staged, rfl⟩
    | picked ids => simp only [step, here] at taken; cases taken
    | inserted ids => simp only [step, here] at taken; cases taken
  | insert =>
    cases here : s.load with
    | picked ids =>
      simp only [step, here, Option.some.injEq] at taken
      exact taken ▸ stores_insert stores here
    | idle => simp only [step, here] at taken; cases taken
    | inserted ids => simp only [step, here] at taken; cases taken
  | delete =>
    cases here : s.load with
    | inserted ids =>
      simp only [step, here, Option.some.injEq] at taken
      exact taken ▸ stores_delete stores here
    | idle => simp only [step, here] at taken; cases taken
    | picked ids => simp only [step, here] at taken; cases taken
  | loadFails =>
    simp only [step, Option.some.injEq] at taken
    subst taken
    exact ⟨stores.apart, stores.nonempty, stores.files, stores.nodup, stores.rows, stores.kept,
      trivial⟩

theorem stores_reached (injective : Function.Injective runtime.uuid5)
    (reached : Reaches (step runtime) (toldApart runtime) State.initial s) : Stores runtime s := by
  refine reached.invariant (Stores runtime) ?_ ?_
  · refine ⟨?_, ?_, ?_, List.nodup_nil, fun _ => Or.inl rfl, ?_, trivial⟩
    all_goals intro first member; cases member
  · intro here there action stores apart taken
    exact stores_step injective stores apart taken

/-! ## The loader, left alone -/

/-- Only the loader goes on, and does not fail. -/
def loaderOnly (_ : State Moment BatchId) : Action → Prop
  | .webhook _ => False
  | .loadFails => False
  | _ => True

theorem loader_finishes (runtime : Runtime Moment BatchId) (s : State Moment BatchId) :
    ∃ s', Reaches (step runtime) loaderOnly s s' ∧ s'.load = .idle ∧ s'.staged = s.staged := by
  have deletes : ∀ (s : State Moment BatchId) ids, s.load = .inserted ids →
      ∃ s', Reaches (step runtime) loaderOnly s s' ∧ s'.load = .idle ∧ s'.staged = s.staged := by
    intro s ids here
    have taken : step runtime s .delete
        = some { s with spool := s.spool.filter (·.1 ∉ ids), load := .idle } := by
      simp only [step, here]
    exact ⟨_, .single .delete trivial taken, rfl, rfl⟩
  cases here : s.load with
  | idle => exact ⟨s, .start, here, rfl⟩
  | picked ids =>
    have taken : step runtime s .insert
        = some { s with table := s.table ++ incoming s ids, load := .inserted ids } := by
      simp only [step, here]
    obtain ⟨s', reached, idle, same⟩ :=
      deletes { s with table := s.table ++ incoming s ids, load := .inserted ids } ids rfl
    exact ⟨s', Reaches.trans (.single .insert trivial taken) reached, idle, same⟩
  | inserted ids => exact deletes s ids here

theorem loader_chunk (runtime : Runtime Moment BatchId) {s : State Moment BatchId}
    (idle : s.load = .idle) (some : s.spool ≠ []) :
    ∃ s', Reaches (step runtime) loaderOnly s s' ∧ s'.load = .idle ∧ s'.staged = s.staged ∧
      s'.spool.length < s.spool.length := by
  obtain ⟨ids, chosen⟩ : ∃ ids, ids = (s.spool.take batchFiles).map Prod.fst := ⟨_, rfl⟩
  have ends : run (step runtime) s [.pick, .insert, .delete] = Option.some
      ⟨s.spool.filter (·.1 ∉ ids), s.table ++ incoming { s with load := .picked ids } ids, .idle,
        s.staged⟩ := by
    simp only [run, step, idle, Option.bind_some, chosen]
  refine ⟨_, reaches_of_run (runMeets_of_forall (by simp [loaderOnly])) ends, rfl, rfl, ?_⟩
  obtain ⟨first, rest, split⟩ := List.exists_cons_of_ne_nil some
  rw [List.length_filter_lt_length_iff_exists]
  refine ⟨first, by rw [split]; exact List.mem_cons_self, ?_⟩
  have among : first.1 ∈ ids := by
    rw [chosen, split]
    exact List.mem_cons_self
  simpa using among

theorem loader_drains (runtime : Runtime Moment BatchId) :
    ∀ (files : ℕ) (s : State Moment BatchId), s.load = .idle → s.spool.length ≤ files →
      ∃ s', Reaches (step runtime) loaderOnly s s' ∧ s'.spool = [] ∧ s'.staged = s.staged
  | 0, s, _, few => ⟨s, .start, List.length_eq_zero_iff.mp (Nat.le_zero.mp few), rfl⟩
  | files + 1, s, idle, few => by
      by_cases none : s.spool = []
      · exact ⟨s, .start, none, rfl⟩
      · obtain ⟨middle, first, idle', staged, fewer⟩ := loader_chunk runtime idle none
        obtain ⟨s', second, empty, same⟩ := loader_drains runtime files middle idle' (by omega)
        exact ⟨s', first.trans second, empty, same.trans staged⟩

/-! ## No accepted row is lost -/

/-- **Batches are kept apart** exactly by the number of events and the text of the first and the last
id: two requests of one server that are not the same get different ids if and only if they differ in
one of these. In every run whose requests do, each accepted row is in the table exactly once when no
file is left, and the loader can always get there. -/
theorem batches_kept_apart (runtime : Runtime Moment BatchId)
    (injective : Function.Injective runtime.uuid5) :
    (∀ first second : Request, first.server = second.server →
      ((first ≠ second → first.batchId runtime ≠ second.batchId runtime) ↔
        (first ≠ second → first.events.length ≠ second.events.length ∨
          idsText runtime first.events ≠ idsText runtime second.events))) ∧
    ∀ s, Reaches (step runtime) (toldApart runtime) State.initial s →
      (s.spool = [] → ∀ request ∈ s.staged,
        held s.table (request.batchId runtime) = request.rows runtime) ∧
      ∃ s', Reaches (step runtime) loaderOnly s s' ∧ s'.spool = [] ∧
        ∀ request ∈ s.staged, held s'.table (request.batchId runtime) = request.rows runtime := by
  have emptied : ∀ s, Reaches (step runtime) (toldApart runtime) State.initial s → s.spool = [] →
      ∀ request ∈ s.staged, held s.table (request.batchId runtime) = request.rows runtime := by
    intro s reached empty request staged
    rcases (stores_reached injective reached).kept request staged with file | rows
    · rw [empty] at file
      cases file
    · exact rows
  refine ⟨?_, ?_⟩
  · intro first second server
    refine imp_congr_right fun _ => ?_
    have same : first.batchId runtime = second.batchId runtime ↔
        first.events.length = second.events.length ∧
          idsText runtime first.events = idsText runtime second.events := by
      rw [Request.batchId, Request.batchId, getBatchId_eq_iff runtime injective]
      exact and_iff_right server
    rw [ne_eq, same, not_and_or]
  · intro s reached
    refine ⟨emptied s reached, ?_⟩
    obtain ⟨middle, first, idle, staged⟩ := loader_finishes runtime s
    obtain ⟨s', second, empty, staged'⟩ := loader_drains runtime _ middle idle (Nat.le_refl _)
    have alone := first.trans second
    refine ⟨s', alone, empty, ?_⟩
    rw [← staged, ← staged']
    refine emptied s' (reached.trans (alone.mono ?_)) empty
    intro here action allowed
    cases action with
    | webhook request => exact allowed.elim
    | _ => trivial

/-! ## One list of events, two streams -/

/-- `uuid5` of the batch text below, and the other values the requests below hold. -/
def sampleRuntime : Runtime String String where
  str
    | .str text => text
    | _ => "None"
  fromisoformat
    | .str "2026-10-20T09:59:00Z" => some (some "2026-10-20 09:59:00")
    | _ => none
  dumps _ := "\x7b\x7d"
  uuid5 := Equiv.swap "n1.example.com:1:2:2" "1971ab8c-38f0-503f-a756-e0d2ae0da771"

/-- An event with an id and a type. -/
def sampleEvent (id name : String) : Json :=
  .object [("id", .str id), ("createdAt", .str "2026-10-20T09:59:00Z"), ("type", .str name)]

/-- A node's request on a stream: an event of the events stream and one of the errors stream. -/
def sampleRequest (stream : String) : Request where
  server := ⟨"n1.example.com", by decide⟩
  stream := stream
  events := [sampleEvent "1" "auth.error", sampleEvent "2" "acme.error"]

/-- The request's one row on the events stream reaches the table once it is loaded. -/
theorem batches_kept_apart_one_request :
    ∃ s, Reaches (step sampleRuntime) (toldApart sampleRuntime) State.initial s ∧ s.spool = [] ∧
      sampleRequest "events" ∈ s.staged ∧
      held s.table ((sampleRequest "events").batchId sampleRuntime)
        = (sampleRequest "events").rows sampleRuntime := by
  have seen : (run (step sampleRuntime) State.initial
      [.webhook (sampleRequest "events"), .pick, .insert, .delete]).map
      (fun s => (s.spool.length, s.staged)) = some (0, [sampleRequest "events"]) := by rfl
  obtain ⟨s, ends, seen⟩ := Option.map_eq_some_iff.mp seen
  obtain ⟨empty, staged⟩ := Prod.mk.inj seen
  have apart : toldApart sampleRuntime State.initial (.webhook (sampleRequest "events")) := by
    intro earlier member
    cases member
  have meets : RunMeets (step sampleRuntime) (toldApart sampleRuntime) State.initial
      [.webhook (sampleRequest "events"), .pick, .insert, .delete] :=
    ⟨apart, fun there _ => runMeets_of_forall (by simp [toldApart])⟩
  have reached := reaches_of_run meets ends
  have member : sampleRequest "events" ∈ s.staged := by
    rw [staged]
    exact List.mem_singleton_self _
  have injective : Function.Injective sampleRuntime.uuid5 := Equiv.injective _
  exact ⟨s, reached, List.length_eq_zero_iff.mp empty, member,
    ((batches_kept_apart sampleRuntime injective).2 s reached).1 (List.length_eq_zero_iff.mp empty)
      _ member⟩

/-- **Two requests of one server that differ in the stream share their batch id**, and the first one's
accepted row never reaches the table. -/
theorem streams_clash :
    sampleRequest "events" ≠ sampleRequest "errors" ∧
      (sampleRequest "events").batchId sampleRuntime
        = (sampleRequest "errors").batchId sampleRuntime ∧
      ∃ s, Reaches (step sampleRuntime) anyStep State.initial s ∧ s.spool = [] ∧
        sampleRequest "events" ∈ s.staged ∧
        ((sampleRequest "events").rows sampleRuntime).map (·.row.event) = ["auth.error"] ∧
        "auth.error" ∉ s.table.map (·.row.event) := by
  refine ⟨?_, rfl, ?_⟩
  · intro same
    exact absurd (congrArg Request.stream same) (by decide)
  · have seen : (run (step sampleRuntime) State.initial
        [.webhook (sampleRequest "events"), .webhook (sampleRequest "errors"), .pick, .insert,
          .delete]).map (fun s => (s.spool.length, s.table.map (·.row.event), s.staged))
        = some (0, ["acme.error"], [sampleRequest "errors", sampleRequest "events"]) := by rfl
    obtain ⟨s, ends, seen⟩ := Option.map_eq_some_iff.mp seen
    obtain ⟨empty, table, staged⟩ : s.spool.length = 0 ∧ s.table.map (·.row.event) = ["acme.error"] ∧
        s.staged = [sampleRequest "errors", sampleRequest "events"] := by
      simpa only [Prod.mk.injEq] using seen
    refine ⟨s, reaches_of_run (runMeets_of_forall fun _ _ _ => trivial) ends,
      List.length_eq_zero_iff.mp empty, ?_, by decide, ?_⟩
    · rw [staged]
      exact List.mem_cons_of_mem _ (List.mem_singleton_self _)
    · rw [table]
      decide

end SuiteCloud.Telemetry
