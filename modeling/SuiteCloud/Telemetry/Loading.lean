/-
**Telemetry: every batch is loaded exactly once.**

`Warehouse.load_pending`, `get_loadable` and `load`, as a program whose every statement is a step.
Batches are written and written again between any two of them; the load of a table may fail, and the
worker may die, anywhere. A load goes through the tables; for each it checks a chunk of files, moves
the bad ones aside, reads the others, commits their rows in one statement, and deletes the files.

What a batch holds is a parameter: a batch written again carries the same rows.

* `Sound` — **the invariant**: the table holds a batch whole or not at all, and whole once a load
  that did not fail has reached it.
* `goOn_decreases` — the loader, left alone, comes to an end.
* `Owed` — what a load under way has reached or will reach in its next chunks.
* `batch_loaded_once` — **each batch is loaded exactly once**, whatever fails or dies, and neither a
  bad file nor a failing table keeps the others from loading.
-/

import Mathlib.Data.Prod.Lex
import SuiteCloud.Library.Transition
import SuiteCloud.Telemetry.Spool
import SuiteCloud.Telemetry.Warehouse

set_option linter.unusedSectionVars false

namespace SuiteCloud.Telemetry.Loading

open SuiteCloud.Library

variable {Moment BatchId Fields : Type} [LinearOrder Moment] [DecidableEq BatchId]

/-! ## The loader -/

/-- Where a load stands with one table. -/
inductive Stage (Moment BatchId Fields : Type)
  /-- `get_loadable` is about to list a chunk. -/
  | picking
  /-- The files still to be checked, and those that are fine. -/
  | checking (todo files : List BatchId)
  /-- A bad file is about to be moved aside. -/
  | rejecting (bad : BatchId) (todo files : List BatchId)
  /-- The insert reads its files; nothing is committed. -/
  | inserting (files todo : List BatchId) (buffer : List (BatchRow Moment BatchId Fields))
  /-- The rows are committed; the files still to be deleted. -/
  | deleting (files todo : List BatchId)

/-- A run of `load_pending`: the table it is at and those that follow; `reached` records the files its
chunks listed, `failed` the tables whose load failed, and no code reads either. -/
structure LoadRun (Moment BatchId Fields : Type) where
  table : TelemetryTable
  rest : List TelemetryTable
  stage : Stage Moment BatchId Fields
  reached : List (TelemetryTable × BatchId)
  failed : List TelemetryTable

/-- The staged files, the tables, and the run under way, if any; `served` records what the completed
runs reached of the tables that did not fail them, and no code reads it. -/
structure State (Moment BatchId Fields : Type) where
  spool : Spool Moment BatchId Fields
  rows : TelemetryTable → List (BatchRow Moment BatchId Fields)
  load : Option (LoadRun Moment BatchId Fields)
  served : List (TelemetryTable × BatchId)

def State.initial : State Moment BatchId Fields := ⟨Spool.empty, fun _ => [], none, []⟩

/-- A run at its first table, with the tables refreshed. -/
def LoadRun.first : LoadRun Moment BatchId Fields := ⟨.events, tables.tail, .picking, [], []⟩

/-- The rows the insert adds: those of the batches the table does not hold yet, looked up among the
ids being loaded. -/
def incoming (rows buffer : List (BatchRow Moment BatchId Fields)) (ids : List BatchId) :
    List (BatchRow Moment BatchId Fields) :=
  buffer.filter fun row => row.batchId ∉ (rows.map (·.batchId)).filter (· ∈ ids)

variable (s : State Moment BatchId Fields) (run : LoadRun Moment BatchId Fields)

/-- The run under way, gone on to a stage. -/
def State.at (stage : Stage Moment BatchId Fields) : State Moment BatchId Fields :=
  { s with load := some { run with stage := stage } }

/-- The next table, or the end of the run. -/
def State.nextTable : State Moment BatchId Fields :=
  match run.rest with
  | [] =>
      { s with
        load := none
        served := run.reached.filter (·.1 ∉ run.failed) ++ s.served }
  | table :: rest =>
      { s with load := some { run with table := table, rest := rest, stage := .picking } }

/-- A load that fails keeps its files for the next run, and the other tables still load. -/
def State.failTable : State Moment BatchId Fields :=
  s.nextTable { run with failed := run.table :: run.failed }

/-- **The loader's next statement.** -/
def State.goOn : State Moment BatchId Fields :=
  match run.stage with
  | .picking =>
      let chunk := s.spool.getPending run.table batchFiles
      { s with
        load := some { run with
          stage := .checking chunk []
          reached := chunk.map (run.table, ·) ++ run.reached } }
  | .checking (id :: todo) files =>
      match s.spool.read run.table id with
      | some _ => s.at run (.checking todo (files ++ [id]))
      | none => s.at run (.rejecting id todo files)
  | .checking [] [] => s.nextTable run
  | .checking [] files => s.at run (.inserting files files [])
  | .rejecting bad todo files =>
      match s.spool.reject run.table bad with
      | some spool => { s with spool := spool }.at run (.checking todo files)
      -- `get_loadable` stands outside the `try`, so what it raises ends the run.
      | none => { s with load := none }
  | .inserting files (id :: todo) buffer =>
      match s.spool.read run.table id with
      | some rows => s.at run (.inserting files todo (buffer ++ rows))
      | none => s.failTable run
  | .inserting files [] buffer =>
      let rows := s.rows run.table
      { s with rows := Function.update s.rows run.table (rows ++ incoming rows buffer files) }.at run
        (.deleting files files)
  | .deleting files (id :: todo) =>
      { s with spool := s.spool.unlink run.table id }.at run (.deleting files todo)
  | .deleting files [] =>
      if files.length < batchFiles then s.nextTable run else s.at run .picking

/-- The statements inside `load`, which `load_pending` runs in a `try`. -/
def Stage.isLoading : Stage Moment BatchId Fields → Bool
  | .inserting .. => true
  | .deleting .. => true
  | _ => false

/-- The statement after which the rows are in the table. -/
def Stage.commits : Stage Moment BatchId Fields → Bool
  | .inserting _ [] _ => true
  | _ => false

inductive Action (Moment BatchId Fields : Type)
  /-- A request stages a batch. -/
  | write (table : TelemetryTable) (file : File Moment BatchId Fields)
  /-- `load_pending` starts, and its tables are refreshed. -/
  | start
  /-- `load_pending` starts, fails to refresh its tables and returns. -/
  | refreshFails
  /-- The loader's next statement. -/
  | goOn
  /-- The load of the table raises. -/
  | loadFails
  /-- The worker dies, or a statement outside the `try` raises. -/
  | crash

/-- **One step of the system.** One run is under way at a time. -/
def step (s : State Moment BatchId Fields) :
    Action Moment BatchId Fields → Option (State Moment BatchId Fields)
  | .write table file => some { s with spool := s.spool.write table file }
  | .start => if s.load.isSome then none else some { s with load := some .first }
  | .refreshFails => if s.load.isSome then none else some s
  | .goOn => s.load.map s.goOn
  | .loadFails => s.load.bind fun run => if run.stage.isLoading then some (s.failTable run) else none
  | .crash => some { s with load := none }

/-- **A batch written again carries the same rows**: what a batch holds is fixed. -/
def resends (batches : TelemetryTable → BatchId → Content Fields)
    (_ : State Moment BatchId Fields) : Action Moment BatchId Fields → Prop
  | .write table file => file.content = batches table file.id
  | _ => True

/-! ## The rows of one batch -/

/-- The rows a table holds of one batch. -/
def stored (rows : List (BatchRow Moment BatchId Fields)) (id : BatchId) : List Fields :=
  (rows.filter (·.batchId = id)).map (·.fields)

/-- The rows a readable batch holds; none of another is ever loaded. -/
def rowsOf (batches : TelemetryTable → BatchId → Content Fields) (table : TelemetryTable)
    (id : BatchId) : List Fields :=
  ((batches table id).loadable table).getD []

theorem stored_append (rows more : List (BatchRow Moment BatchId Fields)) (id : BatchId) :
    stored (rows ++ more) id = stored rows id ++ stored more id := by
  delta stored
  rw [List.filter_append, List.map_append]

theorem stored_file (id other : BatchId) (received : Moment) (rows : List Fields) :
    stored (rows.map fun fields => (⟨id, received, fields⟩ : BatchRow Moment BatchId Fields)) other
      = if other = id then rows else [] := by
  delta stored
  rw [List.filter_map, List.map_map]
  by_cases same : other = id
  · subst same
    rw [if_pos rfl]
    have all := List.filter_eq_self.mpr fun row (_ : row ∈ rows) =>
      decide_eq_true (Eq.refl other)
    exact (congrArg (List.map _) all).trans (List.map_id _)
  · rw [if_neg same]
    have differs : ∀ row ∈ rows, ¬ decide (id = other) = true := fun _ _ equal =>
      same (of_decide_eq_true equal).symm
    exact congrArg (List.map _) (List.filter_eq_nil_iff.mpr differs)

theorem stored_eq_nil {rows : List (BatchRow Moment BatchId Fields)} {id : BatchId} :
    stored rows id = [] ↔ id ∉ rows.map (·.batchId) := by
  delta stored
  rw [List.map_eq_nil_iff, List.filter_eq_nil_iff, List.mem_map]
  constructor
  · rintro none ⟨row, member, same⟩
    exact none row member (decide_eq_true same)
  · intro none row member same
    exact none ⟨row, member, of_decide_eq_true same⟩

theorem stored_incoming (rows buffer : List (BatchRow Moment BatchId Fields)) (ids : List BatchId)
    (id : BatchId) :
    stored (incoming rows buffer ids) id
      = if id ∈ ids ∧ stored rows id ≠ [] then [] else stored buffer id := by
  have skipped : id ∈ (rows.map (·.batchId)).filter (· ∈ ids) ↔ id ∈ ids ∧ stored rows id ≠ [] := by
    rw [List.mem_filter, decide_eq_true_iff, ne_eq, stored_eq_nil, not_not, and_comm]
  unfold stored incoming at *
  rw [List.filter_filter]
  by_cases there : id ∈ (rows.map (·.batchId)).filter (· ∈ ids)
  · rw [if_pos (skipped.mp there), List.map_eq_nil_iff, List.filter_eq_nil_iff]
    intro row _ both
    obtain ⟨same, fresh⟩ := (Bool.and_eq_true _ _).mp both
    obtain rfl := of_decide_eq_true same
    exact of_decide_eq_true fresh there
  · rw [if_neg (mt skipped.mpr there)]
    congr 1
    refine List.filter_congr fun row _ => ?_
    by_cases same : row.batchId = id
    · rw [same, decide_eq_true there, Bool.and_true]
    · rw [decide_eq_false same, Bool.false_and]

/-! ## The invariant -/

/-- A batch the loader can use. -/
def Readable (batches : TelemetryTable → BatchId → Content Fields) (table : TelemetryTable)
    (id : BatchId) : Prop :=
  ((batches table id).loadable table).isSome

/-- The files of a chunk that are not loaded yet, and are not bad. -/
def Stage.underWay : Stage Moment BatchId Fields → List BatchId
  | .checking todo files => files ++ todo
  | .rejecting _ todo files => files ++ todo
  | .inserting files _ _ => files
  | _ => []

/-- **What a stage knows of its files**: they are staged, those found fine are, and the rows read so
far are those of the files read. -/
def StageSound (batches : TelemetryTable → BatchId → Content Fields)
    (spool : Spool Moment BatchId Fields) (table : TelemetryTable) :
    Stage Moment BatchId Fields → Prop
  | .picking => True
  | .checking todo files =>
      (files ++ todo).Nodup ∧ (∀ id ∈ files ++ todo, spool.Present table id) ∧
        ∀ id ∈ files, Readable batches table id
  | .rejecting bad todo files =>
      (files ++ bad :: todo).Nodup ∧ (∀ id ∈ files ++ bad :: todo, spool.Present table id) ∧
        (∀ id ∈ files, Readable batches table id) ∧ ¬ Readable batches table bad
  | .inserting files todo buffer =>
      files ≠ [] ∧ files.Nodup ∧ todo <:+ files ∧
        (∀ id ∈ files, spool.Present table id ∧ Readable batches table id) ∧
        ∀ id, stored buffer id = if id ∈ files ∧ id ∉ todo then rowsOf batches table id else []
  | .deleting _ todo => todo.Nodup ∧ ∀ id ∈ todo, spool.Present table id

/-- **What a run knows**: its tables are distinct, those that failed are behind it, and what it has
reached is loaded, has failed or is under way. -/
structure RunSound (batches : TelemetryTable → BatchId → Content Fields)
    (s : State Moment BatchId Fields) (run : LoadRun Moment BatchId Fields) : Prop where
  tables : (run.table :: run.rest).Nodup
  apart : ∀ table ∈ run.failed, table ∉ run.table :: run.rest
  reached : ∀ table id, (table, id) ∈ run.reached →
    table ∈ run.failed ∨ stored (s.rows table) id = rowsOf batches table id ∨
      (table = run.table ∧ id ∈ run.stage.underWay)
  stage : StageSound batches s.spool run.table run.stage

/-- **A table holds a batch whole or not at all**, and whole once a load that did not fail has reached
it. -/
structure Sound (batches : TelemetryTable → BatchId → Content Fields)
    (s : State Moment BatchId Fields) : Prop where
  files : ∀ table, ∀ file ∈ s.spool.staged table, file.content = batches table file.id
  once : ∀ table id, stored (s.rows table) id = [] ∨
    stored (s.rows table) id = rowsOf batches table id
  served : ∀ table id, (table, id) ∈ s.served →
    stored (s.rows table) id = rowsOf batches table id
  load : ∀ run, s.load = some run → RunSound batches s run

variable {s run} {s' : State Moment BatchId Fields} {action : Action Moment BatchId Fields}
  {batches : TelemetryTable → BatchId → Content Fields} {table : TelemetryTable} {id : BatchId}

theorem rowsOf_of_not_readable (bad : ¬ Readable batches table id) :
    rowsOf batches table id = [] := by
  unfold rowsOf
  rw [Option.not_isSome_iff_eq_none.mp bad]
  rfl

theorem Sound.read_eq_some (sound : Sound batches s) {rows : List (BatchRow Moment BatchId Fields)}
    (read : s.spool.read table id = some rows) :
    Readable batches table id ∧
      ∀ other, stored rows other = if other = id then rowsOf batches table other else [] := by
  obtain ⟨file, found, loaded⟩ := Option.bind_eq_some_iff.mp read
  obtain ⟨there, rfl⟩ := Keyed.get_eq_some.mp found
  obtain ⟨fields, holds, rfl⟩ := Option.map_eq_some_iff.mp loaded
  rw [sound.files table file there] at holds
  refine ⟨Option.isSome_iff_exists.mpr ⟨fields, holds⟩, fun other => ?_⟩
  rw [stored_file]
  refine if_ctx_congr Iff.rfl (fun same => ?_) (fun _ => rfl)
  unfold rowsOf
  rw [same, holds, Option.getD_some]

theorem Sound.read_eq_none (sound : Sound batches s) (here : s.spool.Present table id)
    (read : s.spool.read table id = none) : ¬ Readable batches table id := by
  intro readable
  obtain ⟨file, there, rfl⟩ := here
  have found : (s.spool.staged table).get file.id = some file :=
    Keyed.get_eq_some.mpr ⟨there, rfl⟩
  obtain ⟨fields, holds⟩ := Option.isSome_iff_exists.mp readable
  rw [← sound.files table file there] at holds
  unfold Spool.read at read
  rw [found, Option.bind_some, holds] at read
  cases read

/-- A write leaves what a stage knows. -/
theorem StageSound.write {spool : Spool Moment BatchId Fields} {other : TelemetryTable}
    {file : File Moment BatchId Fields} {stage : Stage Moment BatchId Fields}
    (sound : StageSound batches spool table stage) :
    StageSound batches (spool.write other file) table stage := by
  cases stage with
  | picking => trivial
  | checking todo files =>
    obtain ⟨nodup, present, readable⟩ := sound
    exact ⟨nodup, fun id member => (present id member).write, readable⟩
  | rejecting bad todo files =>
    obtain ⟨nodup, present, readable, unreadable⟩ := sound
    exact ⟨nodup, fun id member => (present id member).write, readable, unreadable⟩
  | inserting files todo buffer =>
    obtain ⟨some, nodup, suffix, present, rows⟩ := sound
    exact ⟨some, nodup, suffix, fun id member => (present id member).imp_left .write, rows⟩
  | deleting files todo =>
    obtain ⟨nodup, present⟩ := sound
    exact ⟨nodup, fun id member => (present id member).write⟩

theorem nodup_tables : tables.Nodup := by decide

theorem sound_initial : Sound batches (State.initial : State Moment BatchId Fields) where
  files _ _ member := nomatch member
  once _ _ := Or.inl rfl
  served _ _ member := nomatch member
  load _ here := nomatch here

theorem Sound.withoutLoad (sound : Sound batches s) : Sound batches { s with load := none } where
  files := sound.files
  once := sound.once
  served := sound.served
  load _ here := nomatch here

/-! ## The steps -/

/-- **A run that goes on to another stage** keeps the invariant, if the files it is done with are
loaded. -/
theorem Sound.at (sound : Sound batches s) (here : s.load = some run)
    {spool : Spool Moment BatchId Fields}
    {rows : TelemetryTable → List (BatchRow Moment BatchId Fields)}
    {stage : Stage Moment BatchId Fields}
    (files : ∀ table, ∀ file ∈ spool.staged table, file ∈ s.spool.staged table)
    (held : ∀ table id, stored (rows table) id = stored (s.rows table) id ∨
      stored (rows table) id = rowsOf batches table id)
    (knows : StageSound batches spool run.table stage)
    (done : ∀ id ∈ run.stage.underWay, id ∈ stage.underWay ∨
      stored (rows run.table) id = rowsOf batches run.table id) :
    Sound batches (State.at { s with spool := spool, rows := rows } run stage) := by
  have whole : ∀ table id, stored (s.rows table) id = rowsOf batches table id →
      stored (rows table) id = rowsOf batches table id := by
    intro table id before
    rcases held table id with same | loaded
    · exact same.trans before
    · exact loaded
  have known := sound.load run here
  refine ⟨fun table file there => sound.files table file (files table file there), ?_,
    fun table id member => whole table id (sound.served table id member), ?_⟩
  · intro table id
    rcases held table id with same | loaded
    · rw [show stored (State.at { s with spool := spool, rows := rows } run stage |>.rows table) id
        = stored (s.rows table) id from same]
      exact sound.once table id
    · exact Or.inr loaded
  · intro other equal
    obtain rfl := Option.some.inj equal
    refine ⟨known.tables, known.apart, fun table id member => ?_, knows⟩
    rcases known.reached table id member with failed | loaded | ⟨rfl, under⟩
    · exact Or.inl failed
    · exact Or.inr (Or.inl (whole table id loaded))
    · rcases done id under with still | loaded
      · exact Or.inr (Or.inr ⟨rfl, still⟩)
      · exact Or.inr (Or.inl loaded)

theorem Sound.at_stage (sound : Sound batches s) (here : s.load = some run)
    {stage : Stage Moment BatchId Fields} (knows : StageSound batches s.spool run.table stage)
    (done : ∀ id ∈ run.stage.underWay, id ∈ stage.underWay ∨
      stored (s.rows run.table) id = rowsOf batches run.table id) :
    Sound batches (s.at run stage) :=
  sound.at here (fun _ _ there => there) (fun _ _ => Or.inl rfl) knows done

theorem Sound.nextTable (sound : Sound batches s) (tables : (run.table :: run.rest).Nodup)
    (apart : ∀ table ∈ run.failed, table ∉ run.rest)
    (reached : ∀ table id, (table, id) ∈ run.reached →
      table ∈ run.failed ∨ stored (s.rows table) id = rowsOf batches table id) :
    Sound batches (s.nextTable run) := by
  unfold State.nextTable
  split
  · refine ⟨sound.files, sound.once, fun table id member => ?_, fun _ none => nomatch none⟩
    rcases List.mem_append.mp member with just | before
    · obtain ⟨there, fine⟩ := List.mem_filter.mp just
      exact (reached table id there).resolve_left (of_decide_eq_true fine)
    · exact sound.served table id before
  · rename_i table rest following
    rw [following] at tables apart
    refine ⟨sound.files, sound.once, sound.served, fun other equal => ?_⟩
    obtain rfl := Option.some.inj equal
    refine ⟨(List.nodup_cons.mp tables).2, apart, fun table id member => ?_, trivial⟩
    exact (reached table id member).imp_right Or.inl

theorem Sound.finishTable (sound : Sound batches s) (here : s.load = some run)
    (idle : ∀ id, id ∉ run.stage.underWay) : Sound batches (s.nextTable run) := by
  have known := sound.load run here
  refine sound.nextTable known.tables ?_ fun table id member => ?_
  · exact fun table failed later => known.apart table failed (List.mem_cons_of_mem _ later)
  · rcases known.reached table id member with failed | loaded | ⟨-, under⟩
    · exact Or.inl failed
    · exact Or.inr loaded
    · exact absurd under (idle id)

theorem Sound.failTable (sound : Sound batches s) (here : s.load = some run) :
    Sound batches (s.failTable run) := by
  have known := sound.load run here
  refine sound.nextTable known.tables ?_ ?_
  · intro table member
    rcases List.mem_cons.mp member with rfl | member
    · exact (List.nodup_cons.mp known.tables).1
    · exact fun later => known.apart table member (List.mem_cons_of_mem _ later)
  · intro table id member
    rcases known.reached table id member with failed | loaded | ⟨rfl, -⟩
    · exact Or.inl (List.mem_cons_of_mem _ failed)
    · exact Or.inr loaded
    · exact Or.inl List.mem_cons_self

theorem sound_picking (sound : Sound batches s) (here : s.load = some run)
    (stage : run.stage = .picking) : Sound batches (s.goOn run) := by
  have known := sound.load run here
  delta State.goOn
  simp only [stage]
  refine ⟨sound.files, sound.once, sound.served, fun other equal => ?_⟩
  obtain rfl := Option.some.inj equal
  refine ⟨known.tables, known.apart, fun table id member => ?_, ?_⟩
  · rcases List.mem_append.mp member with listed | before
    · obtain ⟨id, chosen, same⟩ := List.mem_map.mp listed
      obtain ⟨rfl, rfl⟩ := Prod.mk.inj same
      exact Or.inr (Or.inr ⟨rfl, chosen⟩)
    · rcases known.reached table id before with failed | loaded | ⟨-, under⟩
      · exact Or.inl failed
      · exact Or.inr (Or.inl loaded)
      · rw [stage] at under
        cases under
  · exact ⟨Spool.nodup_getPending, fun id listed => Spool.present_of_pending listed,
      fun id none => nomatch none⟩

theorem sound_check {id : BatchId} {todo files : List BatchId} (sound : Sound batches s)
    (here : s.load = some run) (stage : run.stage = .checking (id :: todo) files) :
    Sound batches (s.goOn run) := by
  have knows := (sound.load run here).stage
  rw [stage] at knows
  obtain ⟨nodup, present, readable⟩ := knows
  have unread : s.spool.Present run.table id :=
    present id (List.mem_append_right _ List.mem_cons_self)
  delta State.goOn
  simp only [stage]
  cases read : s.spool.read run.table id with
  | some rows =>
    have moved : files ++ [id] ++ todo = files ++ id :: todo := List.append_cons files id todo ▸ rfl
    refine sound.at_stage here ⟨?_, ?_, ?_⟩ fun other under => Or.inl ?_
    · rw [moved]
      exact nodup
    · rw [moved]
      exact present
    · intro other member
      rcases List.mem_append.mp member with member | member
      · exact readable other member
      · obtain rfl := List.mem_singleton.mp member
        exact (sound.read_eq_some read).1
    · rw [stage] at under
      show other ∈ files ++ [id] ++ todo
      rw [moved]
      exact under
  | none =>
    have bad := sound.read_eq_none unread read
    refine sound.at_stage here ⟨nodup, present, readable, bad⟩ fun other under => ?_
    rw [stage] at under
    rcases List.mem_append.mp under with fine | later
    · exact Or.inl (List.mem_append_left _ fine)
    · rcases List.mem_cons.mp later with rfl | later
      · -- A bad file has no rows, and the table none of its batch.
        right
        rcases sound.once run.table other with none | whole
        · rw [none, rowsOf_of_not_readable bad]
        · exact whole
      · exact Or.inl (List.mem_append_right _ later)

theorem sound_checked {files : List BatchId} (sound : Sound batches s) (here : s.load = some run)
    (stage : run.stage = .checking [] files) : Sound batches (s.goOn run) := by
  have known := sound.load run here
  have knows := known.stage
  rw [stage] at knows
  obtain ⟨nodup, present, readable⟩ := knows
  rw [List.append_nil] at nodup present
  cases files with
  | nil =>
    delta State.goOn
    simp only [stage]
    refine sound.finishTable here fun id under => ?_
    rw [stage] at under
    cases under
  | cons first rest =>
    delta State.goOn
    simp only [stage]
    refine sound.at_stage here ?_ fun other under => Or.inl ?_
    · refine ⟨List.cons_ne_nil _ _, nodup, List.suffix_rfl, ?_, fun other => ?_⟩
      · exact fun other member => ⟨present other member, readable other member⟩
      · rw [if_neg fun both => both.2 both.1]
        rfl
    · rw [stage] at under
      simpa only [Stage.underWay, List.append_nil] using under

theorem sound_reject {bad : BatchId} {todo files : List BatchId} (sound : Sound batches s)
    (here : s.load = some run) (stage : run.stage = .rejecting bad todo files) :
    Sound batches (s.goOn run) := by
  have knows := (sound.load run here).stage
  rw [stage] at knows
  obtain ⟨nodup, present, readable, -⟩ := knows
  obtain ⟨fine, others⟩ := (List.nodup_middle.mp nodup |> List.nodup_cons.mp)
  obtain ⟨left, moved, staged⟩ :=
    Spool.reject_of_present (present bad (List.mem_append_right _ List.mem_cons_self))
  delta State.goOn
  simp only [stage, moved]
  refine sound.at here ?_ (fun _ _ => Or.inl rfl) ⟨others, ?_, readable⟩ fun id under => Or.inl ?_
  · intro table file there
    rw [staged] at there
    exact (Spool.mem_unlink.mp there).1
  · intro id member
    have among : id ∈ files ++ bad :: todo := by
      rcases List.mem_append.mp member with before | later
      · exact List.mem_append_left _ before
      · exact List.mem_append_right _ (List.mem_cons_of_mem _ later)
    have different : id ≠ bad := fun same => fine (same ▸ member)
    obtain ⟨file, there, named⟩ := (present id among).unlink different
    exact ⟨file, by rw [staged]; exact there, named⟩
  · rw [stage] at under
    exact under

theorem sound_read {id : BatchId} {files todo : List BatchId}
    {buffer : List (BatchRow Moment BatchId Fields)} (sound : Sound batches s)
    (here : s.load = some run) (stage : run.stage = .inserting files (id :: todo) buffer) :
    Sound batches (s.goOn run) := by
  have knows := (sound.load run here).stage
  rw [stage] at knows
  obtain ⟨some, nodup, suffix, present, holds⟩ := knows
  delta State.goOn
  simp only [stage]
  cases read : s.spool.read run.table id with
  | none => exact sound.failTable here
  | some rows =>
    have among : id ∈ files := suffix.subset List.mem_cons_self
    have last : id ∉ todo := (List.nodup_cons.mp (nodup.sublist suffix.sublist)).1
    have later : todo <:+ files := (List.suffix_cons id todo).trans suffix
    refine sound.at_stage here ⟨some, nodup, later, present, fun other => ?_⟩ fun other under => ?_
    · rw [stored_append, holds, (sound.read_eq_some read).2]
      by_cases same : other = id
      · subst same
        rw [if_neg fun both => both.2 List.mem_cons_self, if_pos rfl, if_pos ⟨among, last⟩]
        rfl
      · have unchanged : other ∉ id :: todo ↔ other ∉ todo := by
          rw [List.mem_cons, or_iff_right same]
        rw [if_neg same, List.append_nil]
        exact if_congr (and_congr_right fun _ => unchanged) rfl rfl
    · rw [stage] at under
      exact Or.inl under

theorem stored_commit {files : List BatchId} {buffer : List (BatchRow Moment BatchId Fields)}
    (sound : Sound batches s) (here : s.load = some run)
    (stage : run.stage = .inserting files [] buffer) (id : BatchId) :
    stored (s.rows run.table ++ incoming (s.rows run.table) buffer files) id
      = if id ∈ files then rowsOf batches run.table id else stored (s.rows run.table) id := by
  have knows := (sound.load run here).stage
  rw [stage] at knows
  obtain ⟨-, -, -, -, holds⟩ := knows
  have read : stored buffer id = if id ∈ files then rowsOf batches run.table id else [] := by
    rw [holds]
    exact if_congr (and_iff_left List.not_mem_nil) rfl rfl
  rw [stored_append, stored_incoming, read]
  by_cases among : id ∈ files
  · rw [if_pos among]
    by_cases none : stored (s.rows run.table) id = []
    · rw [if_neg fun both => both.2 none, none, List.nil_append, if_pos among]
    · rw [if_pos ⟨among, none⟩, List.append_nil, if_pos among]
      exact (sound.once run.table id).resolve_left none
  · rw [if_neg among, if_neg fun both => among both.1, if_neg among, List.append_nil]

theorem sound_commit {files : List BatchId} {buffer : List (BatchRow Moment BatchId Fields)}
    (sound : Sound batches s) (here : s.load = some run)
    (stage : run.stage = .inserting files [] buffer) : Sound batches (s.goOn run) := by
  have knows := (sound.load run here).stage
  rw [stage] at knows
  obtain ⟨-, nodup, -, present, -⟩ := knows
  have after := stored_commit sound here stage
  delta State.goOn
  simp only [stage]
  refine sound.at here (fun _ _ there => there) ?_ ⟨nodup, fun id member => (present id member).1⟩
    fun id under => Or.inr ?_
  · intro table id
    by_cases same : table = run.table
    · subst same
      rw [Function.update_self, after]
      by_cases among : id ∈ files
      · rw [if_pos among]
        exact Or.inr rfl
      · rw [if_neg among]
        exact Or.inl rfl
    · rw [Function.update_of_ne same]
      exact Or.inl rfl
  · rw [stage] at under
    rw [Function.update_self, after]
    exact if_pos under

theorem sound_unlink {id : BatchId} {files todo : List BatchId} (sound : Sound batches s)
    (here : s.load = some run) (stage : run.stage = .deleting files (id :: todo)) :
    Sound batches (s.goOn run) := by
  have knows := (sound.load run here).stage
  rw [stage] at knows
  obtain ⟨nodup, present⟩ := knows
  obtain ⟨fresh, rest⟩ := List.nodup_cons.mp nodup
  delta State.goOn
  simp only [stage]
  refine sound.at here ?_ (fun _ _ => Or.inl rfl) ⟨rest, fun other member => ?_⟩ fun other under => ?_
  · exact fun table file there => (Spool.mem_unlink.mp there).1
  · refine (present other (List.mem_cons_of_mem _ member)).unlink ?_
    rintro rfl
    exact fresh member
  · rw [stage] at under
    cases under

theorem sound_deleted {files : List BatchId} (sound : Sound batches s) (here : s.load = some run)
    (stage : run.stage = .deleting files []) : Sound batches (s.goOn run) := by
  have known := sound.load run here
  delta State.goOn
  simp only [stage]
  split
  · refine sound.finishTable here fun id under => ?_
    rw [stage] at under
    cases under
  · refine sound.at_stage here trivial fun other under => ?_
    rw [stage] at under
    cases under

theorem Sound.goOn (sound : Sound batches s) (here : s.load = some run) :
    Sound batches (s.goOn run) := by
  cases stage : run.stage with
  | picking => exact sound_picking sound here stage
  | checking todo files =>
    cases todo with
    | nil => exact sound_checked sound here stage
    | cons id todo => exact sound_check sound here stage
  | rejecting bad todo files => exact sound_reject sound here stage
  | inserting files todo buffer =>
    cases todo with
    | nil => exact sound_commit sound here stage
    | cons id todo => exact sound_read sound here stage
  | deleting files todo =>
    cases todo with
    | nil => exact sound_deleted sound here stage
    | cons id todo => exact sound_unlink sound here stage

theorem sound_step (sound : Sound batches s) (same : resends batches s action)
    (taken : step s action = some s') : Sound batches s' := by
  cases action with
  | write table file =>
    obtain rfl := Option.some.inj taken
    refine ⟨fun other staged there => ?_, sound.once, sound.served, fun run here => ?_⟩
    · rcases Spool.mem_write.mp there with ⟨rfl, rfl⟩ | ⟨there, -⟩
      · exact same
      · exact sound.files other staged there
    · have known := sound.load run here
      exact ⟨known.tables, known.apart, known.reached, known.stage.write⟩
  | start =>
    simp only [step] at taken
    split at taken
    · cases taken
    · obtain rfl := Option.some.inj taken
      refine ⟨sound.files, sound.once, sound.served, fun run here => ?_⟩
      obtain rfl := Option.some.inj here
      exact ⟨nodup_tables, fun table none => absurd none List.not_mem_nil,
        fun table id none => absurd none List.not_mem_nil, trivial⟩
  | refreshFails =>
    simp only [step] at taken
    split at taken
    · cases taken
    · exact Option.some.inj taken ▸ sound
  | goOn =>
    obtain ⟨run, here, rfl⟩ := Option.map_eq_some_iff.mp taken
    exact sound.goOn here
  | loadFails =>
    obtain ⟨run, here, fails⟩ := Option.bind_eq_some_iff.mp taken
    split at fails
    · exact Option.some.inj fails ▸ sound.failTable here
    · cases fails
  | crash => exact Option.some.inj taken ▸ sound.withoutLoad

theorem sound_reached (reached : Reaches step (resends batches) .initial s) : Sound batches s :=
  reached.invariant (Sound batches) sound_initial fun sound same taken => sound_step sound same taken

/-! ## The loader, left alone -/

/-- **Only the loader goes on**, and the load of a table that fails raises before it commits. -/
def alone (fails : TelemetryTable → Prop) (s : State Moment BatchId Fields) :
    Action Moment BatchId Fields → Prop
  | .goOn => ∀ run, s.load = some run → run.stage.commits → ¬ fails run.table
  | .loadFails => ∀ run, s.load = some run → fails run.table
  | _ => False

/-- What is left to do with a chunk, among a number of staged files. A deletion takes a file away, so
only the last of them, which may begin another chunk, weighs more than a chunk to be listed. -/
def Stage.weight (staged : ℕ) : Stage Moment BatchId Fields → ℕ
  | .picking => 2 * staged + 4
  | .checking todo files => 2 * todo.length + files.length + 3
  | .rejecting _ todo files => 2 * todo.length + files.length + 2
  | .inserting _ todo _ => todo.length + 1
  | .deleting _ [] => 2 * staged + 5
  | .deleting _ (_ :: _) => 0

/-- What is left of a run: the tables to follow, the staged files of its table, the chunk. -/
def State.left (s : State Moment BatchId Fields) (run : LoadRun Moment BatchId Fields) :
    ℕ ×ₗ ℕ ×ₗ ℕ :=
  toLex (run.rest.length, toLex ((s.spool.staged run.table).rows.length,
    run.stage.weight (s.spool.staged run.table).rows.length))

/-- A state in which the run is over, or has less left. -/
def Nearer (s : State Moment BatchId Fields) (run : LoadRun Moment BatchId Fields)
    (s' : State Moment BatchId Fields) : Prop :=
  s'.load = none ∨ ∃ run', s'.load = some run' ∧ s'.left run' < s.left run

theorem nearer_nextTable {run' : LoadRun Moment BatchId Fields} (same : run'.rest = run.rest) :
    Nearer s run (s.nextTable run') := by
  unfold State.nextTable
  split
  · exact Or.inl rfl
  · rename_i table rest following
    refine Or.inr ⟨_, rfl, Prod.Lex.toLex_lt_toLex.mpr (Or.inl ?_)⟩
    rw [← same, following]
    exact Nat.lt_succ_self _

theorem nearer_at {spool : Spool Moment BatchId Fields}
    {rows : TelemetryTable → List (BatchRow Moment BatchId Fields)}
    {stage : Stage Moment BatchId Fields}
    (fewer : (spool.staged run.table).rows.length < (s.spool.staged run.table).rows.length ∨
      (spool.staged run.table).rows.length = (s.spool.staged run.table).rows.length ∧
        stage.weight (spool.staged run.table).rows.length
          < run.stage.weight (s.spool.staged run.table).rows.length) :
    Nearer s run (State.at { s with spool := spool, rows := rows } run stage) :=
  Or.inr ⟨_, rfl, Prod.Lex.toLex_lt_toLex.mpr
    (Or.inr ⟨rfl, Prod.Lex.toLex_lt_toLex.mpr fewer⟩)⟩

theorem nearer_stage {stage : Stage Moment BatchId Fields}
    (fewer : stage.weight (s.spool.staged run.table).rows.length
      < run.stage.weight (s.spool.staged run.table).rows.length) : Nearer s run (s.at run stage) :=
  nearer_at (Or.inr ⟨rfl, fewer⟩)

theorem goOn_nearer (sound : Sound batches s) (here : s.load = some run) :
    Nearer s run (s.goOn run) := by
  have knows := (sound.load run here).stage
  cases stage : run.stage with
  | picking =>
    delta State.goOn
    simp only [stage]
    refine Or.inr ⟨_, rfl, Prod.Lex.toLex_lt_toLex.mpr
      (Or.inr ⟨rfl, Prod.Lex.toLex_lt_toLex.mpr (Or.inr ⟨rfl, ?_⟩)⟩)⟩
    rw [stage]
    have few := s.spool.length_getPending_le run.table batchFiles
    simp only [Stage.weight, List.length_nil]
    omega
  | checking todo files =>
    cases todo with
    | nil =>
      cases files with
      | nil =>
        delta State.goOn
        simp only [stage]
        exact nearer_nextTable rfl
      | cons first rest =>
        delta State.goOn
        simp only [stage]
        refine nearer_stage ?_
        rw [stage]
        simp only [Stage.weight, List.length_cons, List.length_nil]
        omega
    | cons id todo =>
      delta State.goOn
      simp only [stage]
      split
      · refine nearer_stage ?_
        rw [stage]
        simp only [Stage.weight, List.length_append, List.length_cons, List.length_nil]
        omega
      · refine nearer_stage ?_
        rw [stage]
        simp only [Stage.weight, List.length_cons]
        omega
  | rejecting bad todo files =>
    rw [stage] at knows
    have present := knows.2.1 bad (List.mem_append_right _ List.mem_cons_self)
    obtain ⟨left, moved, staged⟩ := Spool.reject_of_present present
    delta State.goOn
    simp only [stage, moved]
    refine nearer_at (Or.inl ?_)
    rw [staged]
    exact Spool.count_unlink present
  | inserting files todo buffer =>
    cases todo with
    | nil =>
      rw [stage] at knows
      delta State.goOn
      simp only [stage]
      refine nearer_at (Or.inr ⟨rfl, ?_⟩)
      rw [stage]
      obtain ⟨first, rest, rfl⟩ := List.exists_cons_of_ne_nil knows.1
      exact Nat.succ_pos _
    | cons id todo =>
      delta State.goOn
      simp only [stage]
      split
      · refine nearer_stage ?_
        rw [stage]
        simp only [Stage.weight, List.length_cons]
        omega
      · exact nearer_nextTable rfl
  | deleting files todo =>
    cases todo with
    | nil =>
      delta State.goOn
      simp only [stage]
      split
      · exact nearer_nextTable rfl
      · refine nearer_stage ?_
        rw [stage]
        exact Nat.lt_succ_self _
    | cons id todo =>
      rw [stage] at knows
      delta State.goOn
      simp only [stage]
      exact nearer_at (Or.inl (Spool.count_unlink (knows.2 id List.mem_cons_self)))

/-- **The loader, left alone, comes to an end**, whichever tables fail. -/
theorem completes (fails : TelemetryTable → Prop) (sound : Sound batches s) :
    ∃ s', Reaches step (alone fails) s s' ∧ s'.load = none := by
  cases here : s.load with
  | none => exact ⟨s, .start, here⟩
  | some run =>
    -- Every statement of the loader, and every failure, leaves less of the run.
    induction left : s.left run using WellFoundedLT.induction generalizing s run with
    | _ _ ih =>
      obtain ⟨s', action, allowed, taken, sound', nearer⟩ : ∃ s' action, alone fails s action ∧
          step s action = some s' ∧ Sound batches s' ∧ Nearer s run s' := by
        by_cases failing : run.stage.commits ∧ fails run.table
        · have loading : run.stage.isLoading := by
            cases stage : run.stage with
            | inserting => rfl
            | _ => rw [stage] at failing; cases failing.1
          refine ⟨_, .loadFails, ?_, ?_, sound.failTable here, nearer_nextTable rfl⟩
          · intro other equal
            exact Option.some.inj (here.symm.trans equal) ▸ failing.2
          · rw [step, here, Option.bind_some, if_pos loading]
        · refine ⟨_, .goOn, ?_, congrArg (Option.map s.goOn) here, sound.goOn here,
            goOn_nearer sound here⟩
          intro other equal commits fail
          obtain rfl := Option.some.inj (here.symm.trans equal)
          exact failing ⟨commits, fail⟩
      rcases nearer with finished | ⟨run', here', less⟩
      · exact ⟨s', .single action allowed taken, finished⟩
      · obtain ⟨ended, reached, finished⟩ := ih _ (left ▸ less) sound' run' here' rfl
        exact ⟨ended, Reaches.trans (.single action allowed taken) reached, finished⟩

/-! ## What a run reaches -/

/-- The tables a run has yet to list a chunk of. -/
def LoadRun.waiting (run : LoadRun Moment BatchId Fields) : List TelemetryTable :=
  match run.stage with
  | .picking => run.table :: run.rest
  | _ => run.rest

theorem waiting_of_busy (busy : run.stage ≠ .picking) : run.waiting = run.rest := by
  unfold LoadRun.waiting
  split
  · rename_i picking
    exact absurd picking busy
  · rfl

/-- **What a run reaches**: the files it has listed, and the next chunk of each table to come; those
of a table that has failed are kept for the next run. -/
def Owed (s : State Moment BatchId Fields) (table : TelemetryTable) (id : BatchId) : Prop :=
  ∃ run, s.load = some run ∧ table ∉ run.failed ∧
    ((table, id) ∈ run.reached ∨
      (table ∈ run.waiting ∧ id ∈ s.spool.getPending table batchFiles))

theorem served_nextTable {run' : LoadRun Moment BatchId Fields} (served : (table, id) ∈ s.served) :
    (table, id) ∈ (s.nextTable run').served := by
  unfold State.nextTable
  split
  · exact List.mem_append_right _ served
  · exact served

theorem owed_nextTable {run' : LoadRun Moment BatchId Fields} (fine : table ∉ run'.failed)
    (owed : (table, id) ∈ run'.reached ∨
      (table ∈ run'.rest ∧ id ∈ s.spool.getPending table batchFiles)) :
    (table, id) ∈ (s.nextTable run').served ∨ Owed (s.nextTable run') table id := by
  unfold State.nextTable
  split
  · rename_i last
    rcases owed with reached | ⟨later, -⟩
    · exact Or.inl (List.mem_append_left _ (List.mem_filter.mpr ⟨reached, decide_eq_true fine⟩))
    · rw [last] at later
      cases later
  · rename_i next rest following
    rw [following] at owed
    exact Or.inr ⟨_, rfl, fine, owed⟩

theorem owed_at {spool : Spool Moment BatchId Fields}
    {rows : TelemetryTable → List (BatchRow Moment BatchId Fields)}
    {stage : Stage Moment BatchId Fields} (fine : table ∉ run.failed)
    (files : ∀ other, other ≠ run.table → spool.staged other = s.spool.staged other)
    (tables : (run.table :: run.rest).Nodup)
    (owed : (table, id) ∈ run.reached ∨
      (table ∈ run.rest ∧ id ∈ s.spool.getPending table batchFiles)) :
    Owed (State.at { s with spool := spool, rows := rows } run stage) table id := by
  refine ⟨_, rfl, fine, owed.imp_right ?_⟩
  rintro ⟨later, pending⟩
  have different : table ≠ run.table := by
    rintro rfl
    exact (List.nodup_cons.mp tables).1 later
  refine ⟨?_, ?_⟩
  · cases stage with
    | picking => exact List.mem_cons_of_mem _ later
    | _ => exact later
  · show id ∈ spool.getPending table batchFiles
    rw [Spool.getPending_congr (files table different)]
    exact pending

theorem goOn_cases (sound : Sound batches s) (here : s.load = some run)
    (busy : run.stage ≠ .picking) :
    s.goOn run = s.nextTable run ∨
      ∃ spool rows stage, s.goOn run = State.at { s with spool := spool, rows := rows } run stage ∧
        ∀ other, other ≠ run.table → spool.staged other = s.spool.staged other := by
  have knows := (sound.load run here).stage
  cases stage : run.stage with
  | picking => exact absurd stage busy
  | checking todo files =>
    cases todo with
    | nil =>
      cases files with
      | nil => exact Or.inl (by simp only [State.goOn, stage])
      | cons first rest =>
        simp only [State.goOn, stage]
        exact Or.inr ⟨s.spool, s.rows, _, rfl, fun _ _ => rfl⟩
    | cons id todo =>
      simp only [State.goOn, stage]
      split
      · exact Or.inr ⟨s.spool, s.rows, _, rfl, fun _ _ => rfl⟩
      · exact Or.inr ⟨s.spool, s.rows, _, rfl, fun _ _ => rfl⟩
  | rejecting bad todo files =>
    rw [stage] at knows
    obtain ⟨left, moved, staged⟩ := Spool.reject_of_present
      (knows.2.1 bad (List.mem_append_right _ List.mem_cons_self))
    simp only [State.goOn, stage, moved]
    refine Or.inr ⟨left, s.rows, _, rfl, fun other different => ?_⟩
    rw [staged, Spool.staged_unlink_other different]
  | inserting files todo buffer =>
    cases todo with
    | nil =>
      simp only [State.goOn, stage]
      exact Or.inr ⟨s.spool, _, _, rfl, fun _ _ => rfl⟩
    | cons id todo =>
      rw [stage] at knows
      obtain ⟨-, -, suffix, present, -⟩ := knows
      obtain ⟨staged, readable⟩ := present id (suffix.subset List.mem_cons_self)
      simp only [State.goOn, stage]
      cases read : s.spool.read run.table id with
      | some rows => exact Or.inr ⟨s.spool, s.rows, _, rfl, fun _ _ => rfl⟩
      | none => exact absurd readable (sound.read_eq_none staged read)
  | deleting files todo =>
    cases todo with
    | nil =>
      simp only [State.goOn, stage]
      split
      · exact Or.inl rfl
      · exact Or.inr ⟨s.spool, s.rows, _, rfl, fun _ _ => rfl⟩
    | cons id todo =>
      simp only [State.goOn, stage]
      exact Or.inr ⟨_, s.rows, _, rfl, fun other different => Spool.staged_unlink_other different⟩

theorem served_goOn (sound : Sound batches s) (here : s.load = some run)
    (served : (table, id) ∈ s.served) : (table, id) ∈ (s.goOn run).served := by
  by_cases stage : run.stage = .picking
  · simp only [State.goOn, stage]
    exact served
  · rcases goOn_cases sound here stage with next | ⟨spool, rows, stage', goes, -⟩
    · rw [next]
      exact served_nextTable served
    · rw [goes]
      exact served

theorem owed_goOn (sound : Sound batches s) (here : s.load = some run) (owed : Owed s table id) :
    (table, id) ∈ (s.goOn run).served ∨ Owed (s.goOn run) table id := by
  obtain ⟨other, here', fine, owed⟩ := owed
  obtain rfl := Option.some.inj (here.symm.trans here')
  by_cases stage : run.stage = .picking
  · simp only [LoadRun.waiting, stage] at owed
    simp only [State.goOn, stage]
    refine Or.inr ⟨_, rfl, fine, ?_⟩
    rcases owed with reached | ⟨waits, pending⟩
    · exact Or.inl (List.mem_append_right _ reached)
    · rcases List.mem_cons.mp waits with rfl | later
      · exact Or.inl (List.mem_append_left _ (List.mem_map_of_mem pending))
      · exact Or.inr ⟨later, pending⟩
  · rw [waiting_of_busy stage] at owed
    rcases goOn_cases sound here stage with next | ⟨spool, rows, stage', goes, files⟩
    · rw [next]
      exact owed_nextTable fine owed
    · rw [goes]
      exact Or.inr (owed_at fine files (sound.load run here).tables owed)

theorem owed_step {fails : TelemetryTable → Prop} (sound : Sound batches s)
    (allowed : alone fails s action) (taken : step s action = some s') (fine : ¬ fails table)
    (owed : (table, id) ∈ s.served ∨ Owed s table id) :
    (table, id) ∈ s'.served ∨ Owed s' table id := by
  cases action with
  | goOn =>
    obtain ⟨run, here, rfl⟩ := Option.map_eq_some_iff.mp taken
    rcases owed with served | owed
    · exact Or.inl (served_goOn sound here served)
    · exact owed_goOn sound here owed
  | loadFails =>
    obtain ⟨run, here, loading⟩ := Option.bind_eq_some_iff.mp taken
    split at loading
    · rename_i inside
      obtain rfl := Option.some.inj loading
      rcases owed with served | owed
      · exact Or.inl (served_nextTable served)
      · obtain ⟨other, here', kept, owed⟩ := owed
        obtain rfl := Option.some.inj (here.symm.trans here')
        have different : table ≠ run.table := fun same => fine (same ▸ allowed run here)
        have busy : run.stage ≠ .picking := by
          intro picking
          rw [picking] at inside
          cases inside
        rw [waiting_of_busy busy] at owed
        exact owed_nextTable (List.not_mem_cons_of_ne_of_not_mem different kept) owed
    · cases loading
  | write => exact allowed.elim
  | start => exact allowed.elim
  | refreshFails => exact allowed.elim
  | crash => exact allowed.elim

theorem owed_served {fails : TelemetryTable → Prop} (sound : Sound batches s)
    (owed : Owed s table id) (fine : ¬ fails table) (alone : Reaches step (alone fails) s s')
    (finished : s'.load = none) : (table, id) ∈ s'.served := by
  have kept : Sound batches s' ∧ ((table, id) ∈ s'.served ∨ Owed s' table id) := by
    refine alone.invariant (fun s => Sound batches s ∧ ((table, id) ∈ s.served ∨ Owed s table id))
      ⟨sound, Or.inr owed⟩ ?_
    rintro here there action ⟨sound, owed⟩ allowed taken
    have same : resends batches here action := by
      cases action with
      | write => exact allowed.elim
      | _ => trivial
    exact ⟨sound_step sound same taken, owed_step sound allowed taken fine owed⟩
  rcases kept.2 with served | ⟨run, here, -⟩
  · exact served
  · rw [finished] at here
    cases here

/-! ## Each batch is loaded exactly once -/

/-- **Each batch is loaded exactly once.** In every state that any order of writes, loads, failures
and crashes leads to, a table holds the rows of a batch once or not at all; once a run has completed
that reached a batch and in which the load of its table did not fail, it holds them, and goes on
holding them. And from every such state the loader alone completes the run under way, whichever tables
fail; then it has loaded what each of the other tables had in its chunks, whatever other files these
listed. -/
theorem batch_loaded_once (batches : TelemetryTable → BatchId → Content Fields)
    (s : State Moment BatchId Fields) (reached : Reaches step (resends batches) .initial s) :
    (∀ table id, stored (s.rows table) id = [] ∨
      stored (s.rows table) id = rowsOf batches table id) ∧
    (∀ table id, (table, id) ∈ s.served →
      stored (s.rows table) id = rowsOf batches table id) ∧
    ∀ fails : TelemetryTable → Prop,
      (∃ s', Reaches step (alone fails) s s' ∧ s'.load = none) ∧
      ∀ s', Reaches step (alone fails) s s' → s'.load = none →
        ∀ table id, Owed s table id → ¬ fails table →
          (table, id) ∈ s'.served ∧ stored (s'.rows table) id = rowsOf batches table id := by
  have sound := sound_reached reached
  refine ⟨sound.once, sound.served, fun fails => ⟨completes fails sound, ?_⟩⟩
  intro s' onward finished table id owed fine
  have served := owed_served sound owed fine onward finished
  have sound' : Sound batches s' := sound_reached (reached.trans (onward.mono ?_))
  · exact ⟨served, sound'.served table id served⟩
  · intro here action allowed
    cases action with
    | write => exact allowed.elim
    | _ => trivial

/-- A readable batch of one row, and damaged ones. -/
def sampleBatches : TelemetryTable → ℕ → Content String
  | .events, 0 => .parquet TelemetryTable.events.schema ["delivery.delivered"]
  | _, _ => .unreadable

/-- A request stages a batch at a moment. -/
def sampleWrite (id moment : ℕ) : Action ℕ ℕ String :=
  .write .events ⟨id, moment, moment, sampleBatches .events id⟩

/-- The worker dies between the commit and the delete, the batch is sent again, and the next run
completes. -/
def sampleRun : List (Action ℕ ℕ String) :=
  [sampleWrite 0 1, sampleWrite 1 0, .start] ++ List.replicate 7 Action.goOn ++
    [Action.crash, sampleWrite 0 2, .start] ++ List.replicate 13 Action.goOn

/-- The batch is in the table once. -/
theorem batch_loaded_once_crash :
    ∃ s : State ℕ ℕ String, Reaches step (resends sampleBatches) .initial s ∧
      (.events, 0) ∈ s.served ∧
      stored (s.rows .events) 0 = ["delivery.delivered"] := by
  have seen : (run step State.initial sampleRun).map (·.served) = some [(.events, 0)] := by
    decide
  obtain ⟨s, ends, served⟩ := Option.map_eq_some_iff.mp seen
  have same : ∀ action ∈ sampleRun, ∀ s, resends sampleBatches s action := by
    intro action member s
    simp only [sampleRun, List.mem_append, List.mem_cons, List.mem_replicate, List.not_mem_nil,
      or_false] at member
    rcases member with (((rfl | rfl | rfl) | ⟨-, rfl⟩) | (rfl | rfl | rfl)) | ⟨-, rfl⟩
    · rfl
    · rfl
    · trivial
    · trivial
    · trivial
    · rfl
    · trivial
    · trivial
  have reached := reaches_of_run (runMeets_of_forall same) ends
  have member : (.events, 0) ∈ s.served := served ▸ List.mem_singleton_self _
  exact ⟨s, reached, member, (batch_loaded_once sampleBatches s reached).2.1 .events 0 member⟩

end SuiteCloud.Telemetry.Loading
