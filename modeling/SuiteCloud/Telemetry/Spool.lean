/-
**Telemetry: the tables and the staging directory.**

`suite_cloud/telemetry/__init__.py` and `suite_cloud/telemetry/spool.py`. A table's schema is what a
staged batch carries. One file per accepted batch is staged under the table's name and the batch's
id, until the warehouse loads it; a file the loader cannot use is moved to the rejected ones.

* `Spool.write`, `Spool.getPending`, `Spool.reject`, `Spool.unlink` — the operations.
* `present_of_pending`, `nodup_getPending` — a chunk lists staged files, each once.
* `mem_write`, `mem_unlink` — the files after each; `Present.write`, `Present.unlink` — a file stays.
* `count_unlink` — a directory has fewer files once one of its files is gone.
-/

import Mathlib.Data.List.Nodup
import Mathlib.Data.List.Sort
import Mathlib.Logic.Function.Basic
import Mathlib.Order.Defs.LinearOrder
import SuiteCloud.Library.Keyed

set_option linter.unusedSectionVars false

namespace SuiteCloud.Telemetry

open SuiteCloud.Library

/-! ## The tables -/

inductive ColumnType
  | string
  | timestamp
  | float64
  | int64
  deriving DecidableEq

/-- A column of a schema. -/
structure Field where
  name : String
  type : ColumnType
  nullable : Bool
  deriving DecidableEq

/-- `pyarrow.field`, which is nullable unless it says otherwise. -/
def nullable (name : String) (type : ColumnType) : Field := ⟨name, type, true⟩

def required (name : String) (type : ColumnType) : Field := ⟨name, type, false⟩

/-- `ENVELOPE_FIELDS`: what every row of one batch shares. -/
def envelopeFields : List Field :=
  [required "batch_id" .string, required "received_at" .timestamp, required "source" .string,
    required "host_ip" .string, nullable "hostname" .string]

/-- `TABLES`: the kinds of telemetry that are staged. -/
inductive TelemetryTable
  | events
  | metrics
  | outboundScans
  | outboundScanSymbols
  deriving DecidableEq

/-- The order in which a load goes through them. -/
def tables : List TelemetryTable := [.events, .metrics, .outboundScans, .outboundScanSymbols]

/-- What a staged batch of the table carries. -/
def TelemetryTable.schema : TelemetryTable → List Field
  | .events => envelopeFields ++
      [required "timestamp" .timestamp, required "level" .string, required "event" .string,
        nullable "span_id" .string, nullable "data" .string]
  | .metrics => envelopeFields ++
      [required "timestamp" .timestamp, required "name" .string, required "type" .string,
        required "value" .float64, nullable "count" .int64, nullable "sum" .float64,
        nullable "labels" .string]
  | .outboundScans => envelopeFields ++
      [required "timestamp" .timestamp, required "account" .string,
        nullable "envelope_from" .string, nullable "header_from" .string,
        nullable "message_id" .string, nullable "queue_id" .string, nullable "client_ip" .string,
        nullable "recipients" .int64, nullable "size" .int64, required "action" .string,
        required "score" .float64, nullable "scan_time" .float64, nullable "mode" .string,
        nullable "reject_score" .float64, nullable "symbols" .string]
  | .outboundScanSymbols => envelopeFields ++
      [required "timestamp" .timestamp, required "account" .string, nullable "message_id" .string,
        required "action" .string, required "message_score" .float64, required "symbol" .string,
        required "score" .float64]

/-! ## The staged files -/

/-- A row with the parts of its envelope the loader reads or a resend changes. -/
structure BatchRow (Moment BatchId Fields : Type) where
  batchId : BatchId
  receivedAt : Moment
  fields : Fields

/-- What a file holds: bytes that do not read whole, or a parquet table. -/
inductive Content (Fields : Type)
  | unreadable
  | parquet (schema : List Field) (rows : List Fields)

/-- The rows of a file that reads whole and carries the table's schema. -/
def Content.loadable {Fields : Type} (content : Content Fields) (table : TelemetryTable) :
    Option (List Fields) :=
  match content with
  | .unreadable => none
  | .parquet schema rows => if schema = table.schema then some rows else none

/-- A file named after its batch; every row of it carries the batch's envelope. -/
structure File (Moment BatchId Fields : Type) where
  id : BatchId
  receivedAt : Moment
  mtime : Moment
  content : Content Fields

variable {Moment BatchId Fields : Type} [LinearOrder Moment] [DecidableEq BatchId]

/-- The files of one directory, in the order `glob` lists them. -/
abbrev Directory (Moment BatchId Fields : Type) := Keyed BatchId (File Moment BatchId Fields) File.id

/-- `files/telemetry` and the files moved aside. -/
structure Spool (Moment BatchId Fields : Type) where
  staged : TelemetryTable → Directory Moment BatchId Fields
  rejected : TelemetryTable → Directory Moment BatchId Fields

namespace Spool

def empty : Spool Moment BatchId Fields := ⟨fun _ => ∅, fun _ => ∅⟩

variable (spool : Spool Moment BatchId Fields) (table : TelemetryTable)

/-- The rows a staged file gives the loader: none where it is missing, does not read or has another
schema. -/
def read (id : BatchId) : Option (List (BatchRow Moment BatchId Fields)) :=
  ((spool.staged table).get id).bind fun file =>
    (file.content.loadable table).map fun rows => rows.map (⟨file.id, file.receivedAt, ·⟩)

/-- **`Spool.write`**: the file is renamed into place; the same batch id written again replaces the
earlier file. -/
def write (file : File Moment BatchId Fields) : Spool Moment BatchId Fields :=
  { spool with
    staged := Function.update spool.staged table ((spool.staged table).save file) }

/-- **`Spool.get_pending`**: the oldest staged files first, up to the limit. -/
def getPending (limit : ℕ) : List BatchId :=
  (((spool.staged table).rows.insertionSort (·.mtime ≤ ·.mtime)).take limit).map File.id

/-- `Path.unlink`, which tolerates a file that is gone. -/
def unlink (id : BatchId) : Spool Moment BatchId Fields :=
  { spool with staged := Function.update spool.staged table ((spool.staged table).erase id) }

/-- **`Spool.reject`**: the file is moved aside, in place of one of its name; where it is gone,
`Path.replace` raises. -/
def reject (id : BatchId) : Option (Spool Moment BatchId Fields) :=
  ((spool.staged table).get id).map fun file =>
    ⟨(spool.unlink table id).staged,
      Function.update spool.rejected table ((spool.rejected table).save file)⟩

/-- A batch's file is staged. -/
def Present (id : BatchId) : Prop := ∃ file ∈ spool.staged table, file.id = id

variable {spool table} {other : TelemetryTable} {id gone : BatchId}
  {file : File Moment BatchId Fields}

/-! ## A chunk of files -/

theorem present_of_pending {limit : ℕ} (listed : id ∈ spool.getPending table limit) :
    spool.Present table id := by
  obtain ⟨file, among, rfl⟩ := List.mem_map.mp listed
  exact ⟨file, (List.mem_insertionSort _).mp (List.mem_of_mem_take among), rfl⟩

theorem nodup_getPending {limit : ℕ} : (spool.getPending table limit).Nodup := by
  have sorted : (((spool.staged table).rows.insertionSort (·.mtime ≤ ·.mtime)).map
      File.id).Nodup :=
    ((List.perm_insertionSort _ _).map File.id).nodup_iff.mpr (spool.staged table).unique
  exact sorted.sublist ((List.take_sublist _ _).map File.id)

theorem length_getPending_le (spool : Spool Moment BatchId Fields) (table : TelemetryTable)
    (limit : ℕ) :
    (spool.getPending table limit).length ≤ (spool.staged table).rows.length := by
  unfold getPending
  rw [List.length_map, List.length_take, List.length_insertionSort]
  exact Nat.min_le_right _ _

theorem getPending_congr {changed : Spool Moment BatchId Fields} {limit : ℕ}
    (same : changed.staged table = spool.staged table) :
    changed.getPending table limit = spool.getPending table limit := by
  unfold getPending
  rw [same]

/-! ## What each operation leaves -/

theorem staged_write :
    (spool.write table file).staged
      = Function.update spool.staged table ((spool.staged table).save file) := rfl

theorem staged_unlink :
    (spool.unlink table gone).staged
      = Function.update spool.staged table ((spool.staged table).erase gone) := rfl

theorem mem_write {written : File Moment BatchId Fields} :
    file ∈ (spool.write table written).staged other ↔
      (other = table ∧ file = written) ∨
        (file ∈ spool.staged other ∧ (other = table → file.id ≠ written.id)) := by
  rw [staged_write]
  by_cases same : other = table
  · subst same
    rw [Function.update_self, Keyed.mem_save]
    constructor
    · rintro (rfl | ⟨there, different⟩)
      · exact Or.inl ⟨rfl, rfl⟩
      · exact Or.inr ⟨there, fun _ => different⟩
    · rintro (⟨-, rfl⟩ | ⟨there, different⟩)
      · exact Or.inl rfl
      · exact Or.inr ⟨there, different rfl⟩
  · rw [Function.update_of_ne same]
    constructor
    · exact fun there => Or.inr ⟨there, fun equal => absurd equal same⟩
    · rintro (⟨equal, -⟩ | ⟨there, -⟩)
      · exact absurd equal same
      · exact there

theorem mem_unlink :
    file ∈ (spool.unlink table gone).staged other ↔
      file ∈ spool.staged other ∧ (other = table → file.id ≠ gone) := by
  rw [staged_unlink]
  by_cases same : other = table
  · subst same
    rw [Function.update_self, Keyed.mem_erase]
    exact and_congr_right fun _ => ⟨fun different _ => different, fun different => different rfl⟩
  · rw [Function.update_of_ne same]
    exact ⟨fun there => ⟨there, fun equal => absurd equal same⟩, And.left⟩

theorem staged_unlink_other (different : other ≠ table) :
    (spool.unlink table gone).staged other = spool.staged other :=
  Function.update_of_ne different _ _

theorem reject_of_present (here : spool.Present table id) :
    ∃ left, spool.reject table id = some left ∧ left.staged = (spool.unlink table id).staged := by
  obtain ⟨file, there, named⟩ := here
  have found : (spool.staged table).get id = some file := Keyed.get_eq_some.mpr ⟨there, named⟩
  unfold reject
  rw [found, Option.map_some]
  exact ⟨_, rfl, rfl⟩

/-- A write takes no file away. -/
theorem Present.write (here : spool.Present other id) :
    (spool.write table file).Present other id := by
  obtain ⟨staged, there, rfl⟩ := here
  by_cases replaced : other = table ∧ staged.id = file.id
  · exact ⟨file, mem_write.mpr (Or.inl ⟨replaced.1, rfl⟩), replaced.2.symm⟩
  · refine ⟨staged, mem_write.mpr (Or.inr ⟨there, fun equal same => ?_⟩), rfl⟩
    exact replaced ⟨equal, same⟩

theorem Present.unlink (here : spool.Present table id) (different : id ≠ gone) :
    (spool.unlink table gone).Present table id := by
  obtain ⟨staged, there, rfl⟩ := here
  exact ⟨staged, mem_unlink.mpr ⟨there, fun _ => different⟩, rfl⟩

/-- **A directory has fewer files once one of them is gone.** -/
theorem count_unlink (here : spool.Present table id) :
    ((spool.unlink table id).staged table).rows.length < (spool.staged table).rows.length := by
  obtain ⟨staged, there, rfl⟩ := here
  rw [staged_unlink, Function.update_self]
  show (List.filter _ _).length < _
  rw [List.length_filter_lt_length_iff_exists]
  exact ⟨staged, there, by simp⟩

end Spool

end SuiteCloud.Telemetry
