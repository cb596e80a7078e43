/-
**Telemetry: the loader does not look into the rows.**

It tells rows by the batch they are of. So rows may be replaced by what a statement needs of them: a run of
the loader on rows is a run on their labels.

* `State.map` — a state with every row replaced; `step_map` — **a step of it**.
* `State.settled` — a table once what is staged is loaded; `stored_settled` — what it holds of each batch.
* `Kept`, `kept_step` — **a batch the loader can use stays**: its file is staged, or the table holds it.
-/

import SuiteCloud.Telemetry.Loading

set_option linter.unusedSectionVars false

namespace SuiteCloud.Telemetry

open SuiteCloud.Library

variable {Moment BatchId Fields Label : Type} [LinearOrder Moment] [DecidableEq BatchId]
  (label : Fields → Label)

/-! ## Labels of rows -/

def Content.map : Content Fields → Content Label
  | .unreadable => .unreadable
  | .parquet schema rows => .parquet schema (rows.map label)

def BatchRow.map (row : BatchRow Moment BatchId Fields) : BatchRow Moment BatchId Label :=
  ⟨row.batchId, row.receivedAt, label row.fields⟩

def File.map (file : File Moment BatchId Fields) : File Moment BatchId Label :=
  ⟨file.id, file.receivedAt, file.mtime, file.content.map label⟩

def Directory.map (directory : Directory Moment BatchId Fields) : Directory Moment BatchId Label where
  rows := directory.rows.map (File.map label)
  unique := by
    rw [List.map_map]
    exact directory.unique

def Spool.map (spool : Spool Moment BatchId Fields) : Spool Moment BatchId Label :=
  ⟨fun table => Directory.map label (spool.staged table),
    fun table => Directory.map label (spool.rejected table)⟩

theorem Content.loadable_map (content : Content Fields) (table : TelemetryTable) :
    (content.map label).loadable table = (content.loadable table).map (List.map label) := by
  cases content with
  | unreadable => rfl
  | parquet schema rows =>
    simp only [Content.map, Content.loadable]
    split
    · rfl
    · rfl

namespace Directory

variable {label} {directory : Directory Moment BatchId Fields}

theorem ext_rows {directory other : Directory Moment BatchId Fields} (same : directory.rows = other.rows) :
    directory = other := by
  cases directory
  cases other
  cases same
  rfl

theorem get_map (id : BatchId) : (directory.map label).get id = (directory.get id).map (File.map label) := by
  show (directory.rows.map (File.map label)).find? _ = _
  rw [List.find?_map]
  rfl

theorem rows_save (file : File Moment BatchId Fields) : (directory.save file).rows
    = if file.id ∈ directory.rows.map File.id then
        directory.rows.map fun other => if other.id = file.id then file else other
      else file :: directory.rows := by
  unfold Keyed.save Keyed.insert
  split
  · rfl
  · rfl

theorem save_map (file : File Moment BatchId Fields) :
    (directory.map label).save (file.map label) = Directory.map label (directory.save file) := by
  refine ext_rows ?_
  show _ = (directory.save file).rows.map (File.map label)
  have ids : (directory.map label).rows.map File.id = directory.rows.map File.id := List.map_map
  rw [rows_save, rows_save, ids]
  show (if file.id ∈ directory.rows.map File.id then _ else _) = _
  split
  · show (directory.rows.map (File.map label)).map _ = _
    rw [List.map_map, List.map_map]
    refine List.map_congr_left fun other _ => ?_
    show (if other.id = file.id then _ else _) = File.map label (if other.id = file.id then _ else _)
    split
    · rfl
    · rfl
  · rfl

theorem erase_map (id : BatchId) :
    (directory.map label).erase id = Directory.map label (directory.erase id) := by
  refine ext_rows ?_
  show (directory.rows.map (File.map label)).filter _ = (directory.rows.filter _).map (File.map label)
  rw [List.filter_map]
  rfl

end Directory

namespace Spool

variable {label} {spool : Spool Moment BatchId Fields} {table : TelemetryTable}

theorem update_map (staged : TelemetryTable → Directory Moment BatchId Fields)
    (directory : Directory Moment BatchId Fields) :
    (fun other => Directory.map label (Function.update staged table directory other))
      = Function.update (fun other => Directory.map label (staged other)) table (directory.map label) := by
  funext other
  by_cases same : other = table
  · subst same
    rw [Function.update_self, Function.update_self]
  · rw [Function.update_of_ne same, Function.update_of_ne same]

theorem write_map (file : File Moment BatchId Fields) :
    (spool.map label).write table (file.map label) = (spool.write table file).map label := by
  unfold write map
  simp only [update_map]
  rw [← Directory.save_map]

theorem unlink_map (id : BatchId) :
    (spool.map label).unlink table id = (spool.unlink table id).map label := by
  unfold unlink map
  simp only [update_map]
  rw [← Directory.erase_map]

theorem reject_map (id : BatchId) :
    (spool.map label).reject table id = (spool.reject table id).map (Spool.map label) := by
  unfold reject
  show (((spool.staged table).map label).get id).map _ = _
  rw [Directory.get_map, Option.map_map, Option.map_map]
  refine congrArg (fun change => ((spool.staged table).get id).map change) (funext fun file => ?_)
  show (⟨((spool.map label).unlink table id).staged, _⟩ : Spool Moment BatchId Label) = _
  rw [unlink_map]
  show (⟨_, Function.update _ table (((spool.rejected table).map label).save (file.map label))⟩ :
    Spool Moment BatchId Label) = _
  rw [Directory.save_map]
  show _ = (⟨_, fun other => _⟩ : Spool Moment BatchId Label)
  rw [update_map]
  rfl

theorem getPending_map (limit : ℕ) :
    (spool.map label).getPending table limit = spool.getPending table limit := by
  unfold getPending
  show (((spool.staged table).rows.map (File.map label)).insertionSort _ |>.take limit).map File.id = _
  rw [← List.map_insertionSort (fun first second => first.mtime ≤ second.mtime) _ (File.map label) _
    fun _ _ _ _ => Iff.rfl, ← List.map_take, List.map_map]
  rfl

theorem read_map (id : BatchId) :
    (spool.map label).read table id = (spool.read table id).map (List.map (BatchRow.map label)) := by
  unfold read
  show (((spool.staged table).map label).get id).bind _ = _
  rw [Directory.get_map, Option.bind_map, Option.map_bind]
  refine congrArg (fun change => ((spool.staged table).get id).bind change) (funext fun file => ?_)
  show ((file.content.map label).loadable table).map _
    = Option.map _ (Option.map _ (file.content.loadable table))
  rw [Content.loadable_map, Option.map_map, Option.map_map]
  refine congrArg (fun change => (file.content.loadable table).map change) (funext fun rows => ?_)
  show (rows.map label).map _ = (rows.map _).map _
  rw [List.map_map, List.map_map]
  rfl

end Spool

namespace Loading

/-! ## The loader on labels -/

def Stage.map : Stage Moment BatchId Fields → Stage Moment BatchId Label
  | .picking => .picking
  | .checking todo files => .checking todo files
  | .rejecting bad todo files => .rejecting bad todo files
  | .inserting files todo buffer => .inserting files todo (buffer.map (BatchRow.map label))
  | .deleting files todo => .deleting files todo

def LoadRun.map (run : LoadRun Moment BatchId Fields) : LoadRun Moment BatchId Label :=
  ⟨run.table, run.rest, run.stage.map label, run.reached, run.failed⟩

/-- **A state with every row replaced.** -/
def State.map (s : State Moment BatchId Fields) : State Moment BatchId Label :=
  ⟨s.spool.map label, fun table => (s.rows table).map (BatchRow.map label), s.load.map (LoadRun.map label),
    s.served⟩

def Action.map : Action Moment BatchId Fields → Action Moment BatchId Label
  | .write table file => .write table (file.map label)
  | .start => .start
  | .refreshFails => .refreshFails
  | .goOn => .goOn
  | .loadFails => .loadFails
  | .crash => .crash

variable {label} {s : State Moment BatchId Fields} {run : LoadRun Moment BatchId Fields}

theorem nextTable_map : (s.map label).nextTable (run.map label) = (s.nextTable run).map label := by
  obtain ⟨table, rest, stage, reached, failed⟩ := run
  cases rest with
  | nil => rfl
  | cons next rest => rfl

theorem failTable_map : (s.map label).failTable (run.map label) = (s.failTable run).map label := by
  obtain ⟨table, rest, stage, reached, failed⟩ := run
  cases rest with
  | nil => rfl
  | cons next rest => rfl

theorem incoming_map (rows buffer : List (BatchRow Moment BatchId Fields)) (ids : List BatchId) :
    incoming (rows.map (BatchRow.map label)) (buffer.map (BatchRow.map label)) ids
      = (incoming rows buffer ids).map (BatchRow.map label) := by
  unfold incoming
  rw [List.filter_map, List.map_map]
  rfl

theorem goOn_map : (s.map label).goOn (run.map label) = (s.goOn run).map label := by
  have place : (run.map label).stage = run.stage.map label := rfl
  have spool : (s.map label).spool = s.spool.map label := rfl
  have table : (run.map label).table = run.table := rfl
  cases stage : run.stage with
  | picking =>
    rw [stage] at place
    have pending : (s.map label).spool.getPending (run.map label).table batchFiles
        = s.spool.getPending run.table batchFiles := Spool.getPending_map batchFiles
    simp only [State.goOn, stage, place, Stage.map, pending]
    rfl
  | checking todo files =>
    rw [stage] at place
    cases todo with
    | nil =>
      cases files with
      | nil =>
        simp only [State.goOn, stage, place, Stage.map]
        exact nextTable_map
      | cons first rest => simp only [State.goOn, stage, place, Stage.map]; rfl
    | cons id todo =>
      simp only [State.goOn, stage, place, Stage.map]
      rw [spool, table, Spool.read_map]
      cases s.spool.read run.table id with
      | none => rfl
      | some rows => rfl
  | rejecting bad todo files =>
    rw [stage] at place
    simp only [State.goOn, stage, place, Stage.map]
    rw [spool, table, Spool.reject_map]
    cases s.spool.reject run.table bad with
    | none => rfl
    | some spool => rfl
  | inserting files todo buffer =>
    rw [stage] at place
    cases todo with
    | nil =>
      have rows : Function.update (s.map label).rows run.table
          ((s.map label).rows run.table ++ incoming ((s.map label).rows run.table)
            (buffer.map (BatchRow.map label)) files)
          = fun table => (Function.update s.rows run.table
              (s.rows run.table ++ incoming (s.rows run.table) buffer files) table).map
                (BatchRow.map label) := by
        funext table
        by_cases same : table = run.table
        · subst same
          rw [Function.update_self, Function.update_self, List.map_append, ← incoming_map]
          rfl
        · rw [Function.update_of_ne same, Function.update_of_ne same]
          rfl
      simp only [State.goOn, stage, place, Stage.map]
      exact congrArg (fun rows => State.at { s.map label with rows := rows } (run.map label)
        (.deleting files files)) rows
    | cons id todo =>
      simp only [State.goOn, stage, place, Stage.map]
      rw [spool, table, Spool.read_map]
      cases s.spool.read run.table id with
      | none => exact failTable_map
      | some rows =>
        show State.at _ _ (.inserting files todo (buffer.map _ ++ rows.map _)) = _
        rw [← List.map_append]
        rfl
  | deleting files todo =>
    rw [stage] at place
    cases todo with
    | nil =>
      simp only [State.goOn, stage, place, Stage.map]
      split
      · exact nextTable_map
      · rfl
    | cons id todo =>
      simp only [State.goOn, stage, place, Stage.map]
      show State.at { s.map label with spool := (s.spool.map label).unlink run.table id } _ _ = _
      rw [Spool.unlink_map]
      rfl

theorem step_map (action : Action Moment BatchId Fields) :
    step (s.map label) (action.map label) = (step s action).map (State.map label) := by
  cases action with
  | write table file =>
    show some { s.map label with spool := (s.spool.map label).write table (file.map label) } = _
    rw [Spool.write_map]
    rfl
  | start =>
    show (if (s.load.map _).isSome then _ else _) = Option.map _ (if s.load.isSome then _ else _)
    rw [Option.isSome_map]
    split
    · rfl
    · rfl
  | refreshFails =>
    show (if (s.load.map _).isSome then _ else _) = Option.map _ (if s.load.isSome then _ else _)
    rw [Option.isSome_map]
    split
    · rfl
    · rfl
  | goOn =>
    show (s.load.map _).map _ = (s.load.map _).map _
    rw [Option.map_map, Option.map_map]
    exact congrArg (fun change => s.load.map change) (funext fun run => goOn_map)
  | loadFails =>
    show (s.load.map _).bind _ = (s.load.bind _).map _
    rw [Option.bind_map, Option.map_bind]
    refine congrArg (fun change => s.load.bind change) (funext fun run => ?_)
    show (if (run.stage.map label).isLoading then _ else _)
      = Option.map _ (if run.stage.isLoading then _ else _)
    have same : (run.stage.map label).isLoading = run.stage.isLoading := by cases run.stage <;> rfl
    rw [same]
    split
    · exact congrArg some failTable_map
    · rfl
  | crash => rfl

/-! ## What a table comes to -/

/-- The rows of a staged file. -/
def fileRows (table : TelemetryTable) (file : File Moment BatchId Fields) :
    List (BatchRow Moment BatchId Fields) :=
  ((file.content.loadable table).getD []).map (⟨file.id, file.receivedAt, ·⟩)

/-- **A table once what is staged is loaded**: its rows, and those the insert would add. -/
def State.settled (s : State Moment BatchId Fields) (table : TelemetryTable) :
    List (BatchRow Moment BatchId Fields) :=
  s.rows table ++ incoming (s.rows table) ((s.spool.staged table).rows.flatMap (fileRows table))
    ((s.spool.staged table).rows.map File.id)

theorem fileRows_map (table : TelemetryTable) (file : File Moment BatchId Fields) :
    fileRows table (file.map label) = (fileRows table file).map (BatchRow.map label) := by
  unfold fileRows
  show (((file.content.map label).loadable table).getD []).map _ = _
  rw [Content.loadable_map]
  cases file.content.loadable table with
  | none => rfl
  | some rows =>
    show (rows.map label).map _ = (rows.map _).map _
    rw [List.map_map, List.map_map]
    rfl

theorem settled_map (table : TelemetryTable) :
    (s.map label).settled table = (s.settled table).map (BatchRow.map label) := by
  have files : ((s.map label).spool.staged table).rows
      = (s.spool.staged table).rows.map (File.map label) := rfl
  have buffer : ((s.map label).spool.staged table).rows.flatMap (fileRows table)
      = ((s.spool.staged table).rows.flatMap (fileRows table)).map (BatchRow.map label) := by
    rw [files, List.flatMap_map, List.map_flatMap]
    exact List.flatMap_congr fun file _ => fileRows_map table file
  have ids : ((s.map label).spool.staged table).rows.map File.id
      = (s.spool.staged table).rows.map File.id := by
    rw [files, List.map_map]
    rfl
  show (s.rows table).map _ ++ incoming ((s.rows table).map _) _ _ = _
  rw [buffer, ids, incoming_map, ← List.map_append]
  rfl

section Settled

variable {batches : TelemetryTable → BatchId → Content Fields} {table : TelemetryTable} {id : BatchId}

theorem stored_files {files : List (File Moment BatchId Fields)} (unique : (files.map File.id).Nodup)
    (holds : ∀ file ∈ files, file.content = batches table file.id) :
    stored (files.flatMap (fileRows table)) id
      = if id ∈ files.map File.id then rowsOf batches table id else [] := by
  induction files with
  | nil => rfl
  | cons file files ih =>
    obtain ⟨first, later⟩ := List.forall_mem_cons.mp holds
    obtain ⟨apart, unique⟩ := List.nodup_cons.mp unique
    have here : stored (fileRows table file) id
        = if id = file.id then rowsOf batches table file.id else [] := by
      unfold fileRows
      rw [stored_file, first]
      rfl
    rw [List.flatMap_cons, stored_append, here, ih unique later, List.map_cons]
    by_cases same : id = file.id
    · subst same
      rw [if_pos rfl, if_neg apart, if_pos List.mem_cons_self, List.append_nil]
    · rw [if_neg same, List.nil_append]
      exact if_congr (by rw [List.mem_cons, or_iff_right same]) rfl rfl

/-- **A table comes to hold each batch that is staged**, and keeps the others. -/
theorem stored_settled (sound : Sound batches s) :
    stored (s.settled table) id
      = if id ∈ (s.spool.staged table).rows.map File.id then rowsOf batches table id
        else stored (s.rows table) id := by
  unfold State.settled
  rw [stored_append, stored_incoming, stored_files (s.spool.staged table).unique (sound.files table)]
  by_cases staged : id ∈ (s.spool.staged table).rows.map File.id
  · rw [if_pos staged]
    by_cases fresh : stored (s.rows table) id = []
    · rw [fresh, if_neg fun both => both.2 rfl, List.nil_append, if_pos staged]
    · rw [if_pos ⟨staged, fresh⟩, List.append_nil, if_pos staged]
      exact (sound.once table id).resolve_left fresh
  · rw [if_neg fun both => staged both.1, if_neg staged, List.append_nil, if_neg staged]

end Settled

/-! ## A batch the loader can use stays -/

section Kept

variable {batches : TelemetryTable → BatchId → Content Fields} {table : TelemetryTable} {id : BatchId}
  {s' : State Moment BatchId Fields} {action : Action Moment BatchId Fields}

/-- The files a stage is about to delete. -/
def Stage.doomed : Stage Moment BatchId Fields → List BatchId
  | .deleting _ todo => todo
  | _ => []

theorem nextTable_effect (run : LoadRun Moment BatchId Fields) : (s.nextTable run).spool = s.spool ∧
    (s.nextTable run).rows = s.rows ∧
      ∀ other, (s.nextTable run).load = some other → other.stage.doomed = [] := by
  unfold State.nextTable
  split
  · exact ⟨rfl, rfl, fun other none => by cases none⟩
  · exact ⟨rfl, rfl, fun other same => Option.some.inj same ▸ rfl⟩

/-- **What a statement of the loader does to the files and the tables**: nothing; a bad file is moved aside;
the rows of the files are committed; a file is deleted. -/
theorem goOn_effect (sound : Sound batches s) (here : s.load = some run) :
    ((s.goOn run).spool = s.spool ∧ (s.goOn run).rows = s.rows ∧
      ∀ run', (s.goOn run).load = some run' → run'.stage.doomed = []) ∨
    (∃ bad todo files left, run.stage = .rejecting bad todo files ∧ s.spool.reject run.table bad = some left ∧
      s.goOn run = State.at { s with spool := left } run (.checking todo files)) ∨
    (∃ files buffer rows, run.stage = .inserting files [] buffer ∧
      rows = s.rows run.table ++ incoming (s.rows run.table) buffer files ∧
      s.goOn run = State.at { s with rows := Function.update s.rows run.table rows } run
        (.deleting files files)) ∨
    ∃ files gone todo, run.stage = .deleting files (gone :: todo) ∧
      s.goOn run = State.at { s with spool := s.spool.unlink run.table gone } run (.deleting files todo) := by
  have knows := (sound.load run here).stage
  cases stage : run.stage with
  | picking =>
    left
    simp only [State.goOn, stage]
    exact ⟨trivial, trivial, fun other same => Option.some.inj same ▸ rfl⟩
  | checking todo files =>
    left
    cases todo with
    | nil =>
      cases files with
      | nil =>
        simp only [State.goOn, stage]
        exact nextTable_effect run
      | cons first rest =>
        simp only [State.goOn, stage]
        exact ⟨rfl, rfl, fun other same => Option.some.inj same ▸ rfl⟩
    | cons id todo =>
      simp only [State.goOn, stage]
      split
      · exact ⟨rfl, rfl, fun other same => Option.some.inj same ▸ rfl⟩
      · exact ⟨rfl, rfl, fun other same => Option.some.inj same ▸ rfl⟩
  | rejecting bad todo files =>
    right; left
    rw [stage] at knows
    obtain ⟨left, moved, -⟩ := Spool.reject_of_present
      (knows.2.1 bad (List.mem_append_right _ List.mem_cons_self))
    refine ⟨bad, todo, files, left, rfl, moved, ?_⟩
    simp only [State.goOn, stage, moved]
  | inserting files todo buffer =>
    cases todo with
    | nil =>
      right; right; left
      refine ⟨files, buffer, _, rfl, rfl, ?_⟩
      simp only [State.goOn, stage]
    | cons id todo =>
      left
      simp only [State.goOn, stage]
      split
      · exact ⟨rfl, rfl, fun other same => Option.some.inj same ▸ rfl⟩
      · exact nextTable_effect _
  | deleting files todo =>
    cases todo with
    | nil =>
      left
      simp only [State.goOn, stage]
      split
      · exact nextTable_effect run
      · exact ⟨rfl, rfl, fun other same => Option.some.inj same ▸ rfl⟩
    | cons gone todo =>
      right; right; right
      refine ⟨files, gone, todo, rfl, ?_⟩
      simp only [State.goOn, stage]

/-- The files the loader is about to delete are in the table. -/
def Loaded (batches : TelemetryTable → BatchId → Content Fields) (s : State Moment BatchId Fields) : Prop :=
  ∀ run, s.load = some run → ∀ id ∈ run.stage.doomed,
    stored (s.rows run.table) id = rowsOf batches run.table id

/-- **A batch is kept**: its file is staged, or the table holds it. -/
def Kept (batches : TelemetryTable → BatchId → Content Fields) (s : State Moment BatchId Fields)
    (table : TelemetryTable) (id : BatchId) : Prop :=
  s.spool.Present table id ∨ stored (s.rows table) id = rowsOf batches table id

theorem loaded_initial : Loaded batches (State.initial : State Moment BatchId Fields) :=
  fun _ none => by cases none

theorem loaded_goOn (sound : Sound batches s) (loaded : Loaded batches s) (here : s.load = some run) :
    Loaded batches (s.goOn run) := by
  rcases goOn_effect sound here with ⟨-, -, none⟩ | ⟨bad, todo, files, left, -, -, goes⟩ |
      ⟨files, buffer, rows, stage, rfl, goes⟩ | ⟨files, gone, todo, stage, goes⟩
  · intro run' there id member
    rw [none run' there] at member
    cases member
  · rw [goes]
    intro run' there id member
    obtain rfl := Option.some.inj there
    cases member
  · rw [goes]
    intro run' there id member
    obtain rfl := Option.some.inj there
    show stored (Function.update s.rows run.table _ run.table) id = _
    rw [Function.update_self]
    exact (stored_commit sound here stage id).trans (if_pos member)
  · rw [goes]
    intro run' there id member
    obtain rfl := Option.some.inj there
    have among : id ∈ run.stage.doomed := by
      rw [stage]
      exact List.mem_cons_of_mem _ member
    exact loaded run here id among

theorem kept_goOn (sound : Sound batches s) (loaded : Loaded batches s) (here : s.load = some run)
    (readable : Readable batches table id) (kept : Kept batches s table id) :
    Kept batches (s.goOn run) table id := by
  rcases goOn_effect sound here with ⟨spool, rows, -⟩ | ⟨bad, todo, files, left, stage, moved, goes⟩ |
      ⟨files, buffer, rows, stage, rfl, goes⟩ | ⟨files, gone, todo, stage, goes⟩
  · unfold Kept
    rw [spool, rows]
    exact kept
  · rw [goes]
    have knows := (sound.load run here).stage
    rw [stage] at knows
    obtain ⟨left', moved', staged⟩ := Spool.reject_of_present
      (knows.2.1 bad (List.mem_append_right _ List.mem_cons_self))
    obtain rfl := Option.some.inj (moved.symm.trans moved')
    refine kept.imp_left fun ⟨file, there, named⟩ => ⟨file, ?_, named⟩
    show file ∈ left.staged table
    rw [staged]
    refine Spool.mem_unlink.mpr ⟨there, fun same bad' => ?_⟩
    subst same
    exact knows.2.2.2 (bad' ▸ named ▸ readable)
  · rw [goes]
    refine kept.imp_right fun whole => ?_
    show stored (Function.update s.rows run.table _ table) id = _
    by_cases same : table = run.table
    · subst same
      rw [Function.update_self, stored_commit sound here stage]
      split
      · rfl
      · exact whole
    · rw [Function.update_of_ne same]
      exact whole
  · rw [goes]
    rcases kept with ⟨file, there, named⟩ | whole
    · by_cases same : table = run.table ∧ id = gone
      · obtain ⟨rfl, rfl⟩ := same
        refine Or.inr (loaded run here id ?_)
        rw [stage]
        exact List.mem_cons_self
      · refine Or.inl ⟨file, Spool.mem_unlink.mpr ⟨there, fun equal gone' => same ⟨equal, ?_⟩⟩, named⟩
        exact named.symm.trans gone'
    · exact Or.inr whole

theorem loaded_step (sound : Sound batches s) (loaded : Loaded batches s) (taken : step s action = some s') :
    Loaded batches s' := by
  cases action with
  | write table file =>
    obtain rfl := Option.some.inj taken
    exact loaded
  | start =>
    simp only [step] at taken
    split at taken
    · cases taken
    · obtain rfl := Option.some.inj taken
      intro run there id member
      obtain rfl := Option.some.inj there
      cases member
  | refreshFails =>
    simp only [step] at taken
    split at taken
    · cases taken
    · exact Option.some.inj taken ▸ loaded
  | goOn =>
    obtain ⟨run, here, rfl⟩ := Option.map_eq_some_iff.mp taken
    exact loaded_goOn sound loaded here
  | loadFails =>
    obtain ⟨run, here, fails⟩ := Option.bind_eq_some_iff.mp taken
    split at fails
    · obtain rfl := Option.some.inj fails
      intro run' there id member
      rw [(nextTable_effect _).2.2 run' there] at member
      cases member
    · cases fails
  | crash =>
    obtain rfl := Option.some.inj taken
    intro run none
    cases none

theorem kept_step (sound : Sound batches s) (loaded : Loaded batches s) (readable : Readable batches table id)
    (taken : step s action = some s') (kept : Kept batches s table id) : Kept batches s' table id := by
  cases action with
  | write table file =>
    obtain rfl := Option.some.inj taken
    exact kept.imp_left Spool.Present.write
  | start =>
    simp only [step] at taken
    split at taken
    · cases taken
    · exact Option.some.inj taken ▸ kept
  | refreshFails =>
    simp only [step] at taken
    split at taken
    · cases taken
    · exact Option.some.inj taken ▸ kept
  | goOn =>
    obtain ⟨run, here, rfl⟩ := Option.map_eq_some_iff.mp taken
    exact kept_goOn sound loaded here readable kept
  | loadFails =>
    obtain ⟨run, here, fails⟩ := Option.bind_eq_some_iff.mp taken
    split at fails
    · obtain rfl := Option.some.inj fails
      obtain ⟨spool, rows, -⟩ := nextTable_effect (s := s) { run with failed := run.table :: run.failed }
      unfold Kept State.failTable
      rw [spool, rows]
      exact kept
    · cases fails
  | crash =>
    obtain rfl := Option.some.inj taken
    exact kept

end Kept

end Loading

end SuiteCloud.Telemetry
