/-
**Telemetry: when one load drains the backlog.**

`Warehouse.load_pending` takes the staged files of a table in chunks of `BATCH_FILES` and goes on until a
chunk has fewer loadable files than that. A file that is moved aside counts towards the chunk
`get_pending` lists, and not towards that number: a bad file in a full chunk ends the loop.

* `backlog` — the staged files of a table, oldest first.
* `leftover` — the loop over one table; `leftover_eq_nil` says when it leaves nothing.
* `State.leaves` — **the invariant**: what the run under way will leave of the files it found.
* `backlog_drains_iff` — **one run drains the backlog** when, and only when, every file before the last
  chunk of its table can be loaded.
* `backlog_kept` — 201 files, of which the first cannot be read.

Batches that arrive during a run are written with a name and a time of their own.
-/

import SuiteCloud.Telemetry.Loading

set_option linter.unusedSectionVars false

namespace SuiteCloud.Telemetry.Loading

open SuiteCloud.Library

variable {Moment BatchId Fields : Type} [LinearOrder Moment] [DecidableEq BatchId]

/-! ## The backlog -/

/-- The staged files of a table, oldest first. -/
def backlog (spool : Spool Moment BatchId Fields) (table : TelemetryTable) : List BatchId :=
  ((spool.staged table).rows.insertionSort (·.mtime ≤ ·.mtime)).map File.id

/-- **The loop over one table**: what it leaves of a backlog. The files of a chunk are loaded or moved
aside, and another chunk follows one that had `BATCH_FILES` files to load. -/
def leftover (readable : BatchId → Bool) (files : List BatchId) : List BatchId :=
  if ((files.take batchFiles).filter readable).length < batchFiles then files.drop batchFiles
  else leftover readable (files.drop batchFiles)
termination_by files.length
decreasing_by
  have most := List.length_filter_le readable (files.take batchFiles)
  rw [List.length_take] at most
  rw [List.length_drop]
  unfold batchFiles at *
  omega

/-- The files before the last chunk. -/
def beforeLastChunk (files : List BatchId) : List BatchId :=
  files.take (batchFiles * ((files.length - 1) / batchFiles))

variable {spool : Spool Moment BatchId Fields} {table other : TelemetryTable} {id gone : BatchId}
  {file : File Moment BatchId Fields} {readable : BatchId → Bool} {files : List BatchId}

theorem mem_backlog : id ∈ backlog spool table ↔ spool.Present table id := by
  unfold backlog Spool.Present
  rw [List.mem_map]
  exact exists_congr fun file => and_congr_left fun _ => List.mem_insertionSort _

theorem nodup_backlog : (backlog spool table).Nodup :=
  ((List.perm_insertionSort _ _).map File.id).nodup_iff.mpr (spool.staged table).unique

theorem getPending_eq (limit : ℕ) : spool.getPending table limit = (backlog spool table).take limit :=
  List.map_take

/-! ### Sorting and filtering -/

section Sorting

variable {α : Type*} (r : α → α → Prop) [DecidableRel r] [IsTrans α r] (p : α → Bool)

theorem filter_orderedInsert (a : α) {l : List α} (sorted : l.Pairwise r) :
    (l.orderedInsert r a).filter p =
      if p a then (l.filter p).orderedInsert r a else l.filter p := by
  induction l with
  | nil => rw [List.orderedInsert_nil, List.filter_cons, List.filter_nil, List.orderedInsert_nil]
  | cons b l ih =>
    obtain ⟨first, rest⟩ := List.pairwise_cons.mp sorted
    by_cases before : r a b
    · rw [List.orderedInsert_cons_of_le r l before, List.filter_cons]
      by_cases holds : p a
      · rw [if_pos holds, if_pos holds]
        -- What is left is after `b`, and so after `a`.
        cases left : (b :: l).filter p with
        | nil => rfl
        | cons c m =>
          have member : c ∈ b :: l := List.mem_of_mem_filter (left ▸ List.mem_cons_self)
          have after : r a c := by
            rcases List.mem_cons.mp member with rfl | member
            · exact before
            · exact IsTrans.trans _ _ _ before (first c member)
          rw [List.orderedInsert_cons_of_le r m after]
      · rw [if_neg holds, if_neg holds]
    · rw [List.orderedInsert_of_not_le r l before, List.filter_cons, ih rest, List.filter_cons]
      by_cases here : p b
      · rw [if_pos here, if_pos here]
        split
        · rw [List.orderedInsert_of_not_le r _ before]
        · rfl
      · rw [if_neg here, if_neg here]

theorem filter_insertionSort [Std.Total r] (l : List α) :
    (l.insertionSort r).filter p = (l.filter p).insertionSort r := by
  induction l with
  | nil => rfl
  | cons a l ih =>
    rw [List.insertionSort_cons, filter_orderedInsert r p a (List.pairwise_insertionSort r l), ih,
      List.filter_cons]
    split
    · rw [List.insertionSort_cons]
    · rfl

end Sorting

/-! ### The backlog after each operation -/

instance : Std.Total fun a b : File Moment BatchId Fields => a.mtime ≤ b.mtime :=
  ⟨fun a b => le_total a.mtime b.mtime⟩

instance : IsTrans (File Moment BatchId Fields) fun a b => a.mtime ≤ b.mtime :=
  ⟨fun _ _ _ => le_trans⟩

theorem filter_backlog (keeps : BatchId → Bool) :
    (backlog spool table).filter keeps =
      (((spool.staged table).rows.filter fun file => keeps file.id).insertionSort
        (·.mtime ≤ ·.mtime)).map File.id := by
  unfold backlog
  rw [List.filter_map, filter_insertionSort]
  rfl

theorem backlog_congr {changed : Spool Moment BatchId Fields}
    (same : changed.staged table = spool.staged table) :
    backlog changed table = backlog spool table := by
  unfold backlog
  rw [same]

theorem backlog_unlink :
    backlog (spool.unlink table gone) table = (backlog spool table).filter (· ≠ gone) := by
  rw [filter_backlog]
  unfold backlog
  rw [Spool.staged_unlink, Function.update_self]
  rfl

theorem filter_backlog_write {keeps : BatchId → Bool} (fresh : keeps file.id = false) :
    (backlog (spool.write table file) other).filter keeps = (backlog spool other).filter keeps := by
  by_cases same : other = table
  · subst same
    rw [filter_backlog, filter_backlog, Spool.staged_write, Function.update_self,
      Keyed.filter_save fresh]
  · rw [backlog_congr (Function.update_of_ne same _ _)]

/-! ## What the loop leaves -/

theorem leftover_of_short (short : files.length < batchFiles) : leftover readable files = [] := by
  have few := List.length_filter_le readable (files.take batchFiles)
  rw [leftover, if_pos (few.trans_lt ((List.length_take_le' _ _).trans_lt short))]
  exact List.drop_eq_nil_of_le short.le

theorem leftover_append {chunk rest : List BatchId} (full : chunk.length = batchFiles) :
    leftover readable (chunk ++ rest) =
      if (chunk.filter readable).length < batchFiles then rest else leftover readable rest := by
  rw [leftover, List.take_left' full, List.drop_left' full]

theorem beforeLastChunk_eq (more : batchFiles < files.length) :
    beforeLastChunk files = files.take batchFiles ++ beforeLastChunk (files.drop batchFiles) := by
  have chunks : (files.length - 1) / batchFiles
      = (files.length - batchFiles - 1) / batchFiles + 1 := by
    unfold batchFiles at *
    omega
  unfold beforeLastChunk
  rw [List.length_drop, chunks, Nat.mul_succ, Nat.add_comm, List.take_add]

theorem beforeLastChunk_of_few (few : files.length ≤ batchFiles) : beforeLastChunk files = [] := by
  have none : (files.length - 1) / batchFiles = 0 := Nat.div_eq_of_lt (by
    unfold batchFiles at *
    omega)
  rw [beforeLastChunk, none, Nat.mul_zero, List.take_zero]

/-- **The loop leaves nothing** when every file before the last chunk can be loaded, and only then. -/
theorem leftover_eq_nil :
    leftover readable files = [] ↔ ∀ id ∈ beforeLastChunk files, readable id = true := by
  induction files using leftover.induct readable with
  | case1 files bad =>
    rw [leftover, if_pos bad, List.drop_eq_nil_iff]
    constructor
    · intro few id member
      rw [beforeLastChunk_of_few few] at member
      cases member
    · intro fine
      by_contra many
      rw [beforeLastChunk_eq (Nat.lt_of_not_le many)] at fine
      have whole : (files.take batchFiles).filter readable = files.take batchFiles :=
        List.filter_eq_self.mpr fun id member => fine id (List.mem_append_left _ member)
      rw [whole, List.length_take] at bad
      omega
  | case2 files good ih =>
    have most := List.length_filter_le readable (files.take batchFiles)
    rw [List.length_take] at most
    have whole : (files.take batchFiles).filter readable = files.take batchFiles := by
      refine List.Sublist.eq_of_length_le List.filter_sublist ?_
      rw [List.length_take]
      omega
    rw [leftover, if_neg good, ih]
    by_cases more : batchFiles < files.length
    · rw [beforeLastChunk_eq more]
      refine ⟨fun fine id member => ?_, fun fine id member => fine id (List.mem_append_right _ member)⟩
      rcases List.mem_append.mp member with first | later
      · exact List.filter_eq_self.mp whole id first
      · exact fine id later
    · rw [beforeLastChunk_of_few (Nat.le_of_not_lt more), List.drop_eq_nil_of_le (Nat.le_of_not_lt more),
        beforeLastChunk_of_few (Nat.zero_le _)]

/-! ## What the run under way leaves -/

/-- The files of the chunk at hand that are still staged. -/
def Stage.chunk : Stage Moment BatchId Fields → List BatchId
  | .picking => []
  | .checking todo files => files ++ todo
  | .rejecting bad todo files => files ++ bad :: todo
  | .inserting files _ _ => files
  | .deleting _ todo => todo

/-- What the length of the chunk's `files` is or will be; another chunk is about to be listed after a
whole one. -/
def Stage.loadable (readable : BatchId → Bool) : Stage Moment BatchId Fields → ℕ
  | .picking => batchFiles
  | .checking todo files => files.length + (todo.filter readable).length
  | .rejecting _ todo files => files.length + (todo.filter readable).length
  | .inserting files _ _ => files.length
  | .deleting files _ => files.length

/-- What the loop will leave of the files of its table. -/
def Stage.leaves (readable : BatchId → Bool) (stage : Stage Moment BatchId Fields)
    (files : List BatchId) : List BatchId :=
  if stage.loadable readable < batchFiles then files.filter (· ∉ stage.chunk)
  else leftover readable (files.filter (· ∉ stage.chunk))

/-- What the run will leave of the files of a table: of one it is done with, all that are there. -/
def LoadRun.leaves (readable : BatchId → Bool) (run : LoadRun Moment BatchId Fields)
    (table : TelemetryTable) (files : List BatchId) : List BatchId :=
  if table ∈ run.rest then leftover readable files
  else if table = run.table then run.stage.leaves readable files
  else files

/-- A batch the loader can use, as the loop tells it. -/
def canLoad (batches : TelemetryTable → BatchId → Content Fields) (table : TelemetryTable)
    (id : BatchId) : Bool :=
  ((batches table id).loadable table).isSome

/-- The files staged at the start that are still there, oldest first. -/
def kept (first s : State Moment BatchId Fields) (table : TelemetryTable) : List BatchId :=
  (backlog s.spool table).filter (· ∈ backlog first.spool table)

/-- **What will be left** of the files staged at the start. -/
def State.leaves (s : State Moment BatchId Fields)
    (batches : TelemetryTable → BatchId → Content Fields) (first : State Moment BatchId Fields)
    (table : TelemetryTable) : List BatchId :=
  match s.load with
  | none => kept first s table
  | some run => run.leaves (canLoad batches table) table (kept first s table)

variable {batches : TelemetryTable → BatchId → Content Fields}
  {first s s' : State Moment BatchId Fields} {run run' : LoadRun Moment BatchId Fields}
  {stage : Stage Moment BatchId Fields} {action : Action Moment BatchId Fields}

theorem canLoad_iff : canLoad batches table id = true ↔ Readable batches table id := Iff.rfl

theorem nodup_kept : (kept first s table).Nodup := nodup_backlog.filter _

theorem kept_congr (same : s'.spool.staged table = s.spool.staged table) :
    kept first s' table = kept first s table := by
  unfold kept
  rw [backlog_congr same]

theorem mem_kept : id ∈ kept first s table ↔
    s.spool.Present table id ∧ first.spool.Present table id := by
  unfold kept
  rw [List.mem_filter, decide_eq_true_iff, mem_backlog, mem_backlog]

theorem kept_unlink (gone : BatchId)
    (left : s'.spool.staged table = (s.spool.unlink table gone).staged table) :
    kept first s' table = (kept first s table).filter (· ≠ gone) := by
  unfold kept
  rw [backlog_congr left, backlog_unlink, List.filter_comm]

theorem leaves_of_load (here : s.load = some run) :
    s.leaves batches first table = run.leaves (canLoad batches table) table (kept first s table) := by
  unfold State.leaves
  rw [here]

/-- **A statement that goes on with its table** leaves what the run would have left, if it does of that
table's files. -/
theorem leaves_goesOn (here : s.load = some run) (here' : s'.load = some run')
    (sameTable : run'.table = run.table) (sameRest : run'.rest = run.rest)
    (others : ∀ other, other ≠ run.table → s'.spool.staged other = s.spool.staged other)
    (mine : run'.stage.leaves (canLoad batches run.table) (kept first s' run.table)
      = run.stage.leaves (canLoad batches run.table) (kept first s run.table))
    (tables : (run.table :: run.rest).Nodup) :
    s'.leaves batches first table = s.leaves batches first table := by
  rw [leaves_of_load here, leaves_of_load here']
  unfold LoadRun.leaves
  rw [sameTable, sameRest]
  by_cases current : table = run.table
  · subst current
    rw [if_neg (List.nodup_cons.mp tables).1, if_neg (List.nodup_cons.mp tables).1, if_pos rfl,
      if_pos rfl, mine]
  · rw [kept_congr (others table current), if_neg current, if_neg current]

theorem Stage.leaves_congr {stage' : Stage Moment BatchId Fields} {files' : List BatchId}
    (many : stage'.loadable readable = stage.loadable readable)
    (same : files'.filter (· ∉ stage'.chunk) = files.filter (· ∉ stage.chunk)) :
    stage'.leaves readable files' = stage.leaves readable files := by
  unfold Stage.leaves
  rw [many, same]

theorem Stage.leaves_same {stage' : Stage Moment BatchId Fields}
    (many : stage'.loadable readable = stage.loadable readable) (same : stage'.chunk = stage.chunk) :
    stage'.leaves readable files = stage.leaves readable files :=
  Stage.leaves_congr many (by rw [same])

theorem filter_gone {chunk chunk' : List BatchId}
    (members : ∀ other, other ∈ chunk ↔ other = gone ∨ other ∈ chunk') :
    (files.filter (· ≠ gone)).filter (· ∉ chunk') = files.filter (· ∉ chunk) := by
  rw [List.filter_filter]
  refine List.filter_congr fun other _ => ?_
  rw [Bool.eq_iff_iff, Bool.and_eq_true, decide_eq_true_iff, decide_eq_true_iff, decide_eq_true_iff,
    members, not_or, and_comm]

theorem leaves_nextTable (here : s.load = some run) (sameRest : run'.rest = run.rest)
    (done : run.stage.leaves (canLoad batches run.table) (kept first s run.table)
      = kept first s run.table)
    (tables : (run.table :: run.rest).Nodup) :
    (s.nextTable run').leaves batches first table = s.leaves batches first table := by
  have current : s.leaves batches first table =
      if table ∈ run.rest then leftover (canLoad batches table) (kept first s table)
      else kept first s table := by
    rw [leaves_of_load here]
    unfold LoadRun.leaves
    split
    · rfl
    · split
      · rename_i same
        rw [same, done]
      · rfl
  rw [current]
  unfold State.nextTable
  split
  · rename_i last
    rw [if_neg (by rw [← sameRest, last]; exact List.not_mem_nil)]
    rfl
  · rename_i next rest following
    rw [sameRest] at following
    show LoadRun.leaves _ _ table (kept first s table) = _
    unfold LoadRun.leaves
    rw [following]
    have fresh : next ∉ rest := (List.nodup_cons.mp (following ▸ (List.nodup_cons.mp tables).2)).1
    by_cases same : table = next
    · subst same
      rw [if_neg fresh, if_pos rfl, if_pos List.mem_cons_self]
      unfold Stage.leaves Stage.loadable Stage.chunk
      rw [if_neg (lt_irrefl _)]
      congr 1
      exact List.filter_eq_self.mpr fun _ _ => by simp
    · rw [if_neg same]
      by_cases later : table ∈ rest
      · rw [if_pos later, if_pos (List.mem_cons_of_mem _ later)]
      · rw [if_neg later, if_neg (List.not_mem_cons_of_ne_of_not_mem same later)]

/-! ## The chunk that is listed -/

theorem filter_append_filter {α : Type*} {r : α → α → Prop} {p : α → Bool} {l : List α}
    (sorted : l.Pairwise r) (apart : ∀ a ∈ l, ∀ b ∈ l, p a = false → p b = true → ¬ r a b) :
    l = l.filter p ++ l.filter fun a => !p a := by
  induction l with
  | nil => rfl
  | cons a l ih =>
    obtain ⟨after, sorted⟩ := List.pairwise_cons.mp sorted
    have rest := ih sorted fun x hx y hy =>
      apart x (List.mem_cons_of_mem _ hx) y (List.mem_cons_of_mem _ hy)
    cases holds : p a with
    | true =>
      rw [List.filter_cons_of_pos holds, List.filter_cons_of_neg (by simp [holds]), List.cons_append,
        ← rest]
    | false =>
      have none : l.filter p = [] := by
        refine List.filter_eq_nil_iff.mpr fun b member there => ?_
        exact apart a List.mem_cons_self b (List.mem_cons_of_mem _ member) holds there (after b member)
      rw [none, List.nil_append] at rest
      rw [List.filter_cons_of_neg (by simp [holds]), none, List.nil_append,
        List.filter_cons_of_pos (by simp [holds]), ← rest]

/-- **What is known of the files**: those of the names at the start are the ones that were there, and
the others are later. -/
structure Arrived (first s : State Moment BatchId Fields) : Prop where
  old : ∀ table, ∀ file ∈ s.spool.staged table, file.id ∈ backlog first.spool table →
    file ∈ first.spool.staged table
  later : ∀ table, ∀ file ∈ s.spool.staged table, file.id ∉ backlog first.spool table →
    ∀ before ∈ first.spool.staged table, before.mtime < file.mtime

theorem Arrived.backlog_eq (arrived : Arrived first s) (table : TelemetryTable) :
    ∃ news, backlog s.spool table = kept first s table ++ news := by
  have sorted := List.pairwise_insertionSort
    (fun a b : File Moment BatchId Fields => a.mtime ≤ b.mtime) (s.spool.staged table).rows
  have split := filter_append_filter (p := fun file => decide (file.id ∈ backlog first.spool table))
    sorted (by
      intro a here b there new was before
      rw [List.mem_insertionSort] at here there
      have early := arrived.later table a here (of_decide_eq_false new) b
        (arrived.old table b there (of_decide_eq_true was))
      exact absurd before (not_le_of_gt early))
  have whole := congrArg (List.map File.id) split
  rw [List.map_append] at whole
  refine ⟨_, whole.trans (congrArg (· ++ _) ?_)⟩
  unfold kept
  generalize backlog first.spool table = was
  rw [backlog, List.filter_map]
  rfl

theorem leftover_chunk {ids news : List BatchId} (nodup : ids.Nodup) :
    (if (((ids ++ news).take batchFiles).filter readable).length < batchFiles
      then ids.filter (· ∉ (ids ++ news).take batchFiles)
      else leftover readable (ids.filter (· ∉ (ids ++ news).take batchFiles))) = leftover readable ids := by
  by_cases many : batchFiles ≤ ids.length
  · have full : (ids.take batchFiles).length = batchFiles := by
      rw [List.length_take, Nat.min_eq_left many]
    have rest : ids.filter (· ∉ ids.take batchFiles) = ids.drop batchFiles := by
      have apart := List.disjoint_take_drop nodup (le_refl batchFiles)
      have inside : (ids.take batchFiles).filter (· ∉ ids.take batchFiles) = [] :=
        List.filter_eq_nil_iff.mpr fun id member => by simp [member]
      have outside : (ids.drop batchFiles).filter (· ∉ ids.take batchFiles) = ids.drop batchFiles :=
        List.filter_eq_self.mpr fun id member => decide_eq_true fun there => apart there member
      have whole := congrArg (List.filter (· ∉ ids.take batchFiles))
        (List.take_append_drop batchFiles ids)
      rw [List.filter_append, inside, outside, List.nil_append] at whole
      exact whole.symm
    have goes : leftover readable (ids.take batchFiles ++ ids.drop batchFiles) = _ := leftover_append full
    rw [List.take_append_drop] at goes
    rw [List.take_append_of_le_length many, rest, goes]
  · have short := Nat.lt_of_not_le many
    have none : ids.filter (· ∉ (ids ++ news).take batchFiles) = [] := by
      refine List.filter_eq_nil_iff.mpr fun id member => ?_
      rw [decide_eq_true_iff, not_not, List.take_append, List.take_of_length_le short.le]
      exact List.mem_append_left _ member
    rw [none, leftover_of_short short, leftover_of_short (show ([] : List BatchId).length < _ from
      Nat.zero_lt_of_lt short), ite_self]

theorem leaves_picked (arrived : Arrived first s) :
    Stage.leaves (canLoad batches table) (.checking (s.spool.getPending table batchFiles) [] :
        Stage Moment BatchId Fields) (kept first s table)
      = Stage.leaves (canLoad batches table) (.picking : Stage Moment BatchId Fields)
          (kept first s table) := by
  obtain ⟨news, files⟩ := arrived.backlog_eq table
  have all : (kept first s table).filter (· ∉ ([] : List BatchId)) = kept first s table :=
    List.filter_eq_self.mpr fun id _ => decide_eq_true (List.not_mem_nil (a := id))
  have listed : Stage.leaves (canLoad batches table)
      (.checking (s.spool.getPending table batchFiles) [] : Stage Moment BatchId Fields)
      (kept first s table)
    = if 0 + ((s.spool.getPending table batchFiles).filter (canLoad batches table)).length < batchFiles
      then (kept first s table).filter (· ∉ s.spool.getPending table batchFiles)
      else leftover (canLoad batches table)
        ((kept first s table).filter (· ∉ s.spool.getPending table batchFiles)) := rfl
  have before : Stage.leaves (canLoad batches table) (.picking : Stage Moment BatchId Fields)
      (kept first s table)
    = leftover (canLoad batches table) ((kept first s table).filter (· ∉ ([] : List BatchId))) := rfl
  rw [listed, before, all, Nat.zero_add, getPending_eq, files, leftover_chunk nodup_kept]

/-! ## One run -/

/-- A run begins, with its tables refreshed. -/
def State.started (s : State Moment BatchId Fields) : State Moment BatchId Fields :=
  { s with load := some .first }

/-- **A run in which no load fails**, while batches with names and times of their own may arrive. -/
def arriving (batches : TelemetryTable → BatchId → Content Fields) (first : State Moment BatchId Fields)
    (_ : State Moment BatchId Fields) : Action Moment BatchId Fields → Prop
  | .write table file => file.content = batches table file.id ∧
      ∀ before ∈ first.spool.staged table, before.id ≠ file.id ∧ before.mtime < file.mtime
  | .goOn => True
  | _ => False

/-- **The backlog is drained**: no file that was there is left, and each that cannot be loaded has been
moved aside. -/
def Drained (first s : State Moment BatchId Fields) : Prop :=
  ∀ table, ∀ file ∈ first.spool.staged table, file ∉ s.spool.staged table ∧
    (file.content.loadable table = none → file ∈ s.spool.rejected table)

/-- **The invariant of one run.** -/
structure Draining (batches : TelemetryTable → BatchId → Content Fields)
    (first s : State Moment BatchId Fields) : Prop extends Arrived first s where
  sound : Sound batches s
  leaves : ∀ table, s.leaves batches first table
    = leftover (canLoad batches table) (backlog first.spool table)
  aside : ∀ table, ∀ file ∈ first.spool.staged table, ¬ Readable batches table file.id →
    file ∈ s.spool.staged table ∨ file ∈ s.spool.rejected table
  deletes : ∀ run files todo, s.load = some run → run.stage = .deleting files todo →
    ∀ id ∈ todo, Readable batches run.table id

/-- A batch that arrives. -/
theorem Draining.write (draining : Draining batches first s) {file : File Moment BatchId Fields}
    (allowed : arriving batches first s (.write table file)) :
    Draining batches first { s with spool := s.spool.write table file } := by
  obtain ⟨content, fresh⟩ := allowed
  have unknown : ∀ other, other = table → file.id ∉ backlog first.spool other := by
    rintro other rfl member
    obtain ⟨before, there, same⟩ := mem_backlog.mp member
    exact (fresh before there).1 same
  have same : ∀ other, kept first { s with spool := s.spool.write table file } other
      = kept first s other := by
    intro other
    by_cases here : other = table
    · exact filter_backlog_write (decide_eq_false (unknown other here))
    · exact kept_congr (Function.update_of_ne here _ _)
  have again : resends batches s (.write table file) := content
  refine ⟨⟨?_, ?_⟩, sound_step draining.sound again rfl, ?_, ?_, draining.deletes⟩
  · intro other staged there known
    rcases Spool.mem_write.mp there with ⟨rfl, rfl⟩ | ⟨there, -⟩
    · exact absurd known (unknown other rfl)
    · exact draining.old other staged there known
  · intro other staged there new before was
    rcases Spool.mem_write.mp there with ⟨rfl, rfl⟩ | ⟨there, -⟩
    · exact (fresh before was).2
    · exact draining.later other staged there new before was
  · intro other
    rw [← draining.leaves other]
    unfold State.leaves
    rw [same other]
  · intro other staged was bad
    refine (draining.aside other staged was bad).imp_left fun there => ?_
    refine Spool.mem_write.mpr (Or.inr ⟨there, ?_⟩)
    rintro rfl named
    exact (fresh staged was).1 named

theorem Arrived.unlink (arrived : Arrived first s)
    (left : ∀ table, ∀ file ∈ s'.spool.staged table, file ∈ s.spool.staged table) : Arrived first s' :=
  ⟨fun table file there => arrived.old table file (left table file there),
    fun table file there => arrived.later table file (left table file there)⟩

theorem Draining.goesOn (draining : Draining batches first s) (here : s.load = some run)
    (here' : s'.load = some run') (spool : s'.spool = s.spool) (sound : Sound batches s')
    (sameTable : run'.table = run.table) (sameRest : run'.rest = run.rest)
    (mine : run'.stage.leaves (canLoad batches run.table) (kept first s run.table)
      = run.stage.leaves (canLoad batches run.table) (kept first s run.table))
    (deletes : ∀ files todo, run'.stage = .deleting files todo →
      ∀ id ∈ todo, Readable batches run.table id) :
    Draining batches first s' := by
  have staged : ∀ table, s'.spool.staged table = s.spool.staged table := fun table => by rw [spool]
  refine ⟨draining.toArrived.unlink fun table file there => staged table ▸ there, sound, fun table => ?_,
    fun table file was bad => ?_, ?_⟩
  · rw [← draining.leaves table]
    refine leaves_goesOn here here' sameTable sameRest (fun other _ => staged other) ?_
      (draining.sound.load run here).tables
    rw [kept_congr (staged run.table), mine]
  · rw [spool]
    exact draining.aside table file was bad
  · intro other files todo equal deleting
    obtain rfl := Option.some.inj (here'.symm.trans equal)
    rw [sameTable]
    exact deletes files todo deleting

theorem Draining.nextTable (draining : Draining batches first s) (here : s.load = some run)
    (sound : Sound batches (s.nextTable run))
    (done : run.stage.leaves (canLoad batches run.table) (kept first s run.table)
      = kept first s run.table) :
    Draining batches first (s.nextTable run) := by
  have spool : (s.nextTable run).spool = s.spool := by
    unfold State.nextTable
    split
    · rfl
    · rfl
  refine ⟨draining.toArrived.unlink fun table file there => spool ▸ there, sound, fun table => ?_,
    fun table file was bad => ?_, ?_⟩
  · rw [← draining.leaves table]
    exact leaves_nextTable here rfl done (draining.sound.load run here).tables
  · rw [spool]
    exact draining.aside table file was bad
  · intro other files todo equal deleting
    unfold State.nextTable at equal
    split at equal
    · cases equal
    · obtain rfl := Option.some.inj equal
      cases deleting

theorem Draining.unlinks (draining : Draining batches first s) (gone : BatchId)
    (here : s.load = some run) (here' : s'.load = some run')
    (left : s'.spool.staged = (s.spool.unlink run.table gone).staged) (sound : Sound batches s')
    (sameTable : run'.table = run.table) (sameRest : run'.rest = run.rest)
    (many : run'.stage.loadable (canLoad batches run.table)
      = run.stage.loadable (canLoad batches run.table))
    (members : ∀ id, id ∈ run.stage.chunk ↔ id = gone ∨ id ∈ run'.stage.chunk)
    (rejected : ∀ table, ∀ file ∈ first.spool.staged table, ¬ Readable batches table file.id →
      file ∈ s.spool.rejected table ∨ (table = run.table ∧ file.id = gone ∧ file ∈ s.spool.staged table) →
        file ∈ s'.spool.rejected table)
    (deletes : ∀ files todo, run'.stage = .deleting files todo →
      ∀ id ∈ todo, Readable batches run.table id) :
    Draining batches first s' := by
  have staged : ∀ table file, file ∈ s'.spool.staged table ↔
      file ∈ s.spool.staged table ∧ (table = run.table → file.id ≠ gone) := by
    intro table file
    rw [left]
    exact Spool.mem_unlink
  refine ⟨draining.toArrived.unlink fun table file there => ((staged table file).mp there).1, sound,
    fun table => ?_, fun table file was bad => ?_, ?_⟩
  · rw [← draining.leaves table]
    refine leaves_goesOn here here' sameTable sameRest ?_ ?_ (draining.sound.load run here).tables
    · intro other different
      rw [left]
      exact Spool.staged_unlink_other different
    · rw [kept_unlink gone (congrFun left run.table)]
      exact Stage.leaves_congr many (filter_gone members)
  · rcases draining.aside table file was bad with there | aside
    · by_cases taken : table = run.table ∧ file.id = gone
      · exact Or.inr (rejected table file was bad (Or.inr ⟨taken.1, taken.2, there⟩))
      · exact Or.inl ((staged table file).mpr ⟨there, fun same named => taken ⟨same, named⟩⟩)
    · exact Or.inr (rejected table file was bad (Or.inl aside))
  · intro other files todo equal deleting
    obtain rfl := Option.some.inj (here'.symm.trans equal)
    rw [sameTable]
    exact deletes files todo deleting

theorem Draining.goOn (draining : Draining batches first s) (here : s.load = some run) :
    Draining batches first (s.goOn run) := by
  have sound := draining.sound.goOn here
  have knows := (draining.sound.load run here).stage
  have none (files : List BatchId) : files.filter (· ∉ ([] : List BatchId)) = files :=
    List.filter_eq_self.mpr fun id _ => decide_eq_true (List.not_mem_nil (a := id))
  cases stage : run.stage with
  | picking =>
    simp only [State.goOn, stage] at sound ⊢
    refine draining.goesOn here rfl rfl sound rfl rfl ?_ fun _ _ deleting => by cases deleting
    rw [stage]
    exact leaves_picked draining.toArrived
  | checking todo files =>
    cases todo with
    | nil =>
      cases files with
      | nil =>
        simp only [State.goOn, stage] at sound ⊢
        refine draining.nextTable here sound ?_
        rw [stage]
        exact none _
      | cons id files =>
        simp only [State.goOn, stage] at sound ⊢
        refine draining.goesOn here rfl rfl sound rfl rfl ?_ fun _ _ deleting => by cases deleting
        rw [stage]
        exact Stage.leaves_same rfl (List.append_nil _).symm
    | cons id todo =>
      rw [stage] at knows
      have present := knows.2.1 id (List.mem_append_right _ List.mem_cons_self)
      cases read : s.spool.read run.table id with
      | some rows =>
        have fine := (draining.sound.read_eq_some read).1
        simp only [State.goOn, stage, read] at sound ⊢
        refine draining.goesOn here rfl rfl sound rfl rfl ?_ fun _ _ deleting => by cases deleting
        rw [stage]
        refine Stage.leaves_same ?_ (List.append_cons files id todo).symm
        simp only [Stage.loadable]
        rw [List.filter_cons_of_pos (canLoad_iff.mpr fine), List.length_append, List.length_cons,
          List.length_cons, List.length_nil]
        omega
      | none =>
        have bad := draining.sound.read_eq_none present read
        simp only [State.goOn, stage, read] at sound ⊢
        refine draining.goesOn here rfl rfl sound rfl rfl ?_ fun _ _ deleting => by cases deleting
        rw [stage]
        refine Stage.leaves_same ?_ rfl
        simp only [Stage.loadable]
        rw [List.filter_cons_of_neg (mt canLoad_iff.mp bad)]
  | rejecting bad todo files =>
    rw [stage] at knows
    obtain ⟨staged, there, named⟩ := knows.2.1 bad (List.mem_append_right _ List.mem_cons_self)
    have found : (s.spool.staged run.table).get bad = some staged :=
      Keyed.get_eq_some.mpr ⟨there, named⟩
    have moved : s.spool.reject run.table bad = some
        ⟨(s.spool.unlink run.table bad).staged, Function.update s.spool.rejected run.table
          ((s.spool.rejected run.table).save staged)⟩ := by
      unfold Spool.reject
      rw [found, Option.map_some]
    simp only [State.goOn, stage, moved] at sound ⊢
    refine draining.unlinks bad here rfl rfl sound rfl rfl ?_ ?_ ?_ fun _ _ deleting => by cases deleting
    · rw [stage]
      rfl
    · intro id
      rw [stage]
      simp only [Stage.chunk, List.mem_append, List.mem_cons]
      exact or_left_comm
    · intro table file was _ aside
      show file ∈ Function.update s.spool.rejected run.table _ table
      by_cases same : table = run.table
      · subst same
        rw [Function.update_self, Keyed.mem_save]
        by_cases equal : file.id = bad
        · -- The name is of one file only: the one that was there at the start.
          have first := draining.old _ staged there (mem_backlog.mpr ⟨file, was, equal.trans named.symm⟩)
          exact Or.inl (Keyed.eq_of_key was first (equal.trans named.symm))
        · refine Or.inr ⟨aside.resolve_right fun taken => equal taken.2.1, ?_⟩
          rw [named]
          exact equal
      · rw [Function.update_of_ne same]
        exact aside.resolve_right fun taken => same taken.1
  | inserting files todo buffer =>
    rw [stage] at knows
    obtain ⟨-, -, suffix, present, -⟩ := knows
    cases todo with
    | nil =>
      simp only [State.goOn, stage] at sound ⊢
      refine draining.goesOn here rfl rfl sound rfl rfl ?_ ?_
      · rw [stage]
        rfl
      · intro files' todo' deleting id member
        cases deleting
        exact (present id member).2
    | cons id todo =>
      obtain ⟨staged, readable⟩ := present id (suffix.subset List.mem_cons_self)
      cases read : s.spool.read run.table id with
      | some rows =>
        simp only [State.goOn, stage, read] at sound ⊢
        refine draining.goesOn here rfl rfl sound rfl rfl ?_ fun _ _ deleting => by cases deleting
        rw [stage]
        rfl
      | none => exact absurd readable (draining.sound.read_eq_none staged read)
  | deleting files todo =>
    have fine := draining.deletes run files todo here stage
    cases todo with
    | nil =>
      by_cases short : files.length < batchFiles
      · simp only [State.goOn, stage, if_pos short] at sound ⊢
        refine draining.nextTable here sound ?_
        rw [stage]
        exact (if_pos short).trans (none _)
      · simp only [State.goOn, stage, if_neg short] at sound ⊢
        refine draining.goesOn here rfl rfl sound rfl rfl ?_ fun _ _ deleting => by cases deleting
        rw [stage]
        exact (if_neg (lt_irrefl _)).trans (if_neg short).symm
    | cons id todo =>
      simp only [State.goOn, stage] at sound ⊢
      refine draining.unlinks id here rfl rfl sound rfl rfl ?_ ?_ ?_ ?_
      · rw [stage]
        rfl
      · intro other
        rw [stage]
        exact List.mem_cons
      · rintro table file was bad (aside | ⟨rfl, rfl, -⟩)
        · exact aside
        · exact absurd (fine _ List.mem_cons_self) bad
      · intro files' todo' deleting other member
        cases deleting
        exact fine other (List.mem_cons_of_mem _ member)

theorem draining_step (draining : Draining batches first s) (allowed : arriving batches first s action)
    (taken : step s action = some s') : Draining batches first s' := by
  cases action with
  | write table file =>
    obtain rfl := Option.some.inj taken
    exact draining.write allowed
  | goOn =>
    obtain ⟨run, here, rfl⟩ := Option.map_eq_some_iff.mp taken
    exact draining.goOn here
  | start => exact allowed.elim
  | refreshFails => exact allowed.elim
  | loadFails => exact allowed.elim
  | crash => exact allowed.elim

theorem sound_started (sound : Sound batches s) (idle : s.load = none) : Sound batches s.started := by
  have taken : step s .start = some s.started := by
    rw [step, idle]
    rfl
  exact sound_step sound (show resends batches s .start from trivial) taken

theorem kept_self : kept s s table = backlog s.spool table :=
  List.filter_eq_self.mpr fun _ member => decide_eq_true member

theorem draining_started (sound : Sound batches s) (idle : s.load = none) :
    Draining batches s s.started := by
  refine ⟨⟨fun _ _ there _ => there, ?_⟩, sound_started sound idle, fun table => ?_,
    fun _ _ there _ => Or.inl there, ?_⟩
  · intro table file there new
    exact absurd (mem_backlog.mpr ⟨file, there, rfl⟩) new
  · have here : s.started.load = some .first := rfl
    rw [leaves_of_load here, show kept s s.started table = kept s s table from rfl, kept_self]
    have all : (backlog s.spool table).filter (· ∉ ([] : List BatchId)) = backlog s.spool table :=
      List.filter_eq_self.mpr fun id _ => decide_eq_true (List.not_mem_nil (a := id))
    have picking : Stage.leaves (canLoad batches table) (.picking : Stage Moment BatchId Fields)
        (backlog s.spool table)
      = leftover (canLoad batches table) ((backlog s.spool table).filter (· ∉ ([] : List BatchId))) := rfl
    cases table with
    | events =>
      rw [all] at picking
      exact picking
    | metrics => rfl
    | outboundScans => rfl
    | outboundScanSymbols => rfl
  · intro run files todo equal deleting
    obtain rfl := Option.some.inj equal
    cases deleting

theorem kept_of_run (sound : Sound batches s) (idle : s.load = none)
    (ran : Reaches step (arriving batches s) s.started s') (ended : s'.load = none) :
    Draining batches s s' ∧
      ∀ table, kept s s' table = leftover (canLoad batches table) (backlog s.spool table) := by
  have draining : Draining batches s s' :=
    ran.invariant (Draining batches s) (draining_started sound idle) draining_step
  refine ⟨draining, fun table => ?_⟩
  rw [← draining.leaves table]
  unfold State.leaves
  rw [ended]

theorem readable_of_staged (sound : Sound batches s) (there : file ∈ s.spool.staged table) :
    Readable batches table file.id ↔ file.content.loadable table ≠ none := by
  rw [Readable, ← sound.files table file there, Option.isSome_iff_ne_none]

theorem drained_iff (sound : Sound batches s) (idle : s.load = none)
    (ran : Reaches step (arriving batches s) s.started s') (ended : s'.load = none) :
    Drained s s' ↔
      ∀ table, leftover (canLoad batches table) (backlog s.spool table) = [] := by
  obtain ⟨draining, left⟩ := kept_of_run sound idle ran ended
  constructor
  · intro drained table
    rw [← left table]
    refine List.eq_nil_iff_forall_not_mem.mpr fun id member => ?_
    obtain ⟨⟨file, there, rfl⟩, was⟩ := mem_kept.mp member
    have file_was := draining.old table file there (mem_backlog.mpr was)
    exact (drained table file file_was).1 there
  · intro nothing table file was
    have gone : file ∉ s'.spool.staged table := by
      intro there
      have member : file.id ∈ kept s s' table :=
        mem_kept.mpr ⟨⟨file, there, rfl⟩, ⟨file, was, rfl⟩⟩
      rw [left table, nothing table] at member
      cases member
    refine ⟨gone, fun bad => (draining.aside table file was ?_).resolve_left gone⟩
    exact fun readable => (readable_of_staged sound was).mp readable bad

theorem canLoad_eq (sound : Sound batches s) (staged : id ∈ backlog s.spool table) :
    canLoad batches table id = (s.spool.read table id).isSome := by
  obtain ⟨file, there, rfl⟩ := mem_backlog.mp staged
  have found : (s.spool.staged table).get file.id = some file :=
    Keyed.get_eq_some.mpr ⟨there, rfl⟩
  rw [canLoad, ← sound.files table file there, Spool.read, found, Option.bind_some, Option.isSome_map]

theorem run_ends (sound : Sound batches s) (idle : s.load = none) :
    ∃ s', Reaches step (arriving batches s) s.started s' ∧ s'.load = none := by
  obtain ⟨s', ran, ended⟩ := completes (fun _ => False) (sound_started sound idle)
  refine ⟨s', ran.projects id ?_, ended⟩
  intro here there action allowed taken
  refine Or.inr ⟨action, ?_, taken⟩
  cases action with
  | goOn => trivial
  | loadFails =>
    obtain ⟨run, loading, -⟩ := Option.bind_eq_some_iff.mp taken
    exact (allowed run loading).elim
  | write => exact allowed.elim
  | start => exact allowed.elim
  | refreshFails => exact allowed.elim
  | crash => exact allowed.elim

theorem nothing_left_iff (sound : Sound batches s) :
    (∀ table, leftover (canLoad batches table) (backlog s.spool table) = []) ↔
      ∀ table, ∀ id ∈ beforeLastChunk (backlog s.spool table), (s.spool.read table id).isSome := by
  refine forall_congr' fun table => leftover_eq_nil.trans (forall₂_congr fun id member => ?_)
  rw [canLoad_eq sound (List.take_subset _ _ member)]

theorem all_drained_iff (sound : Sound batches s) (idle : s.load = none) :
    (∀ s', Reaches step (arriving batches s) s.started s' → s'.load = none → Drained s s') ↔
      ∀ table, leftover (canLoad batches table) (backlog s.spool table) = [] := by
  constructor
  · intro all
    obtain ⟨s', ran, ended⟩ := run_ends sound idle
    exact (drained_iff sound idle ran ended).mp (all s' ran ended)
  · intro nothing s' ran ended
    exact (drained_iff sound idle ran ended).mpr nothing

/-- **When one run drains the backlog.** From any state between two runs, with any files staged, a run of
`load_pending` in which no load fails comes to its end; and every such run, whatever batches arrive
meanwhile, leaves no file that was staged when it started and has moved aside each that cannot be loaded,
if and only if every file before the last chunk of its table, oldest first, can be loaded. -/
theorem backlog_drains_iff (batches : TelemetryTable → BatchId → Content Fields)
    (s : State Moment BatchId Fields) (reached : Reaches step (resends batches) .initial s)
    (idle : s.load = none) :
    (∃ s', Reaches step (arriving batches s) s.started s' ∧ s'.load = none) ∧
    ((∀ s', Reaches step (arriving batches s) s.started s' → s'.load = none → Drained s s') ↔
      ∀ table, ∀ id ∈ beforeLastChunk (backlog s.spool table), (s.spool.read table id).isSome) := by
  have sound := sound_reached reached
  exact ⟨run_ends sound idle, (all_drained_iff sound idle).trans (nothing_left_iff sound)⟩

/-- One damaged batch, and batches of one event. -/
def damagedFirst : TelemetryTable → ℕ → Content String
  | _, 0 => .unreadable
  | table, _ + 1 => .parquet table.schema ["delivery.delivered"]

/-- A batch of each number is staged, one after the other. -/
def stagedBatches : List (Action ℕ ℕ String) :=
  (List.range 201).map fun id => .write .events ⟨id, id, id, damagedFirst .events id⟩

theorem resends_stagedBatches (s : State ℕ ℕ String) :
    ∀ action ∈ stagedBatches, resends damagedFirst s action := by
  intro action member
  obtain ⟨id, -, rfl⟩ := List.mem_map.mp member
  rfl

/-- Three batches are staged, the oldest of them damaged: one run drains them. -/
theorem backlog_drains_iff_three : ∃ s s' : State ℕ ℕ String,
    Reaches step (resends damagedFirst) .initial s ∧ backlog s.spool .events = [0, 1, 2] ∧
      Reaches step (arriving damagedFirst s) s.started s' ∧ s'.load = none ∧ Drained s s' := by
  have seen : (run step State.initial (stagedBatches.take 3)).map (fun s =>
      (s.load.isNone, backlog s.spool .events, tables.all fun table =>
        (beforeLastChunk (backlog s.spool table)).all fun id => (s.spool.read table id).isSome))
      = some (true, [0, 1, 2], true) := by
    decide
  obtain ⟨s, ends, facts⟩ := Option.map_eq_some_iff.mp seen
  obtain ⟨idle, staged, fine⟩ := Prod.mk.inj facts |>.imp_right Prod.mk.inj
  have reached : Reaches step (resends damagedFirst) .initial s :=
    reaches_of_run (runMeets_of_forall fun action member s =>
      resends_stagedBatches s action (List.mem_of_mem_take member)) ends
  obtain ⟨⟨s', ran, ended⟩, drains⟩ :=
    backlog_drains_iff damagedFirst s reached (Option.isNone_iff_eq_none.mp idle)
  refine ⟨s, s', reached, staged, ran, ended, drains.mpr (fun table => ?_) s' ran ended⟩
  have listed : table ∈ tables := by
    cases table with
    | _ => decide
  exact List.all_eq_true.mp (List.all_eq_true.mp fine table listed)

/-- **A run that leaves readable files**: 201 batches are staged, the oldest of them damaged. -/
theorem backlog_kept : ∃ s : State ℕ ℕ String,
    Reaches step (resends damagedFirst) .initial s ∧ s.load = none ∧
      (backlog s.spool .events).length = 201 ∧
      ¬ ∀ s', Reaches step (arriving damagedFirst s) s.started s' → s'.load = none → Drained s s' := by
  have seen : (run step State.initial stagedBatches).map (fun s =>
      (s.load.isNone, (backlog s.spool .events).length,
        (beforeLastChunk (backlog s.spool .events)).all fun id => (s.spool.read .events id).isSome))
      = some (true, 201, false) := by
    decide +kernel
  obtain ⟨s, ends, facts⟩ := Option.map_eq_some_iff.mp seen
  obtain ⟨idle, many, damaged⟩ := Prod.mk.inj facts |>.imp_right Prod.mk.inj
  have reached : Reaches step (resends damagedFirst) .initial s :=
    reaches_of_run (runMeets_of_forall fun action member s => resends_stagedBatches s action member) ends
  have sound := sound_reached reached
  have idle := Option.isNone_iff_eq_none.mp idle
  refine ⟨s, reached, idle, many, fun all => ?_⟩
  have fine := (nothing_left_iff sound).mp ((all_drained_iff sound idle).mp all) .events
  rw [List.all_eq_false] at damaged
  obtain ⟨id, member, bad⟩ := damaged
  exact bad (fine id member)

end SuiteCloud.Telemetry.Loading
