/-
**The outbound scans: from the shipper to the tables.**

`ship_outbound_scans.py` against the method `outbound_scans` and the loader. The shipper takes the spool,
posts the records of each pending file in batches and deletes a file once each of its batches was accepted.
Its process may stop anywhere; a request it gave up may still be worked on, and the loader runs meanwhile.

* `State`, `step` — the shipper, the requests under way and what Suite Cloud holds.
* `steady` — the runs in which records are distinct, nothing is trimmed and no taken file is written to.
* `sentBatches` — the batches of some files; `flatten_sentBatches` — **they are made of the files' records**.
* `scansOf_body` — **what is posted is what the method is called with**.
-/

import Mathlib.Algebra.GroupWithZero.Nat
import SuiteCloud.Library.Calls
import SuiteCloud.Library.JsonStyle
import SuiteCloud.Provisioning.Rspamd.ScanFile
import SuiteCloud.Telemetry.OutboundScans
import SuiteCloud.Telemetry.Relabel

set_option linter.unusedSectionVars false

namespace SuiteCloud.Provisioning.Rspamd.Shipping

open SuiteCloud.Library SuiteCloud.Telemetry.OutboundScans

open Telemetry (TelemetryTable)

/-! ## The shipper -/

/-- `BATCH_SIZE`. -/
def batchSize : ℕ := 2000

/-- `MAX_BACKLOG_BYTES`. -/
def maxBacklogBytes : ℕ := 100 * 1024 * 1024

/-- A file of `PENDING`. -/
structure PendingFile where
  name : String
  bytes : List UInt8

/-- `sorted(PENDING.glob("*.jsonl"))`. -/
def sortedFiles (pending : Keyed String PendingFile PendingFile.name) : List PendingFile :=
  pending.rows.insertionSort (·.name ≤ ·.name)

def totalBytes (files : List PendingFile) : ℕ := (files.map (·.bytes.length)).sum

/-- The loop of `trim_backlog`: the oldest files, until the others fit. -/
def dropped : List PendingFile → ℕ → List PendingFile
  | [], _ => []
  | oldest :: files, total =>
      if maxBacklogBytes < total then oldest :: dropped files (total - oldest.bytes.length) else []

/-- **`trim_backlog`.** -/
def trimBacklog (pending : Keyed String PendingFile PendingFile.name) :
    Keyed String PendingFile PendingFile.name :=
  (dropped (sortedFiles pending) (totalBytes (sortedFiles pending))).foldl
    (fun left file => left.erase file.name) pending

/-- What the two programs run on. -/
structure Setup (N Moment BatchId : Type) where
  runtime : Runtime N Moment BatchId
  /-- `read_text(errors="replace")`. -/
  decode : List UInt8 → List Char
  decode_nil : decode [] = []
  /-- `server.name`, of the node. -/
  server : String

variable {N Moment BatchId : Type} [Numeral N] [LinearOrder Moment] [DecidableEq BatchId]
  (setup : Setup N Moment BatchId)

/-- `get_records`, of a file, cut in batches. -/
def batchesOf (bytes : List UInt8) : List (List (Json N)) :=
  batches batchSize (getRecords (setup.decode bytes))

/-- `json.dumps` with the separators of `post`. -/
def postStyle : Json.Style := Json.compact Json.asciiEscape Json.reads_asciiEscape

/-- The body of a request. -/
def body (records : List (Json N)) : List Char :=
  postStyle.dumps (Json.sortKeys (.object [("scans", .list records)]))

/-- What the method is called with. -/
def scansOf (body : List Char) : Option (List (Json N)) :=
  match Json.loads body with
  | some (.object arguments) =>
      match Dict.get arguments "scans" with
      | some (.list scans) => some scans
      | _ => none
  | _ => none

/-! ## The shipper, the requests and Suite Cloud -/

/-- How far Suite Cloud is with a request: with what it has still to stage, under which id. -/
inductive Progress (N Moment BatchId : Type)
  | sent
  | staging (id : BatchId) (receivedAt : Moment) (writes : List (TelemetryTable × List (Fields N Moment)))
  | answered

structure Request (N Moment BatchId : Type) where
  body : List Char
  progress : Progress N Moment BatchId

/-- Where the shipper stands. -/
inductive Stage (N : Type)
  /-- No process runs. -/
  | idle
  /-- `take_spool`. -/
  | taking
  /-- `trim_backlog`, and the files are listed. -/
  | listing
  /-- There are no files: an empty batch is to be posted. -/
  | checkIn
  | checkingIn (request : ℕ)
  /-- The files still to be sent. -/
  | opening (files : List String)
  /-- The batches of the file still to be posted. -/
  | sending (file : PendingFile) (batches : List (List (Json N))) (files : List String)
  | posting (request : ℕ) (file : PendingFile) (batch : List (Json N)) (batches : List (List (Json N)))
      (files : List String)
  /-- It ended: with success, or not. -/
  | returned (success : Bool)
  /-- It ended with success and sent nothing: its URL or its token is not set. -/
  | unset

/-- The stage that trims. -/
def Stage.isListing : Stage N → Bool
  | .listing => true
  | _ => false

/-- A run has ended with success. -/
def Stage.succeeded : Stage N → Bool
  | .returned success => success
  | _ => false

/-- The state of both sides. `taken` records the files there were to send, `accepted` the batches whose post
returned true, `deleted` the files the shipper deleted; no code reads them. -/
structure State (N Moment BatchId : Type) where
  spool : List UInt8
  pending : Keyed String PendingFile PendingFile.name
  stage : Stage N
  requests : ℕ → Option (Request N Moment BatchId)
  next : ℕ
  cloud : Telemetry.Loading.State Moment BatchId (Fields N Moment)
  taken : List (List UInt8)
  accepted : List (List (Json N))
  deleted : List (List UInt8)

/-- Some pending files, what the recorder has written since, and nothing stored. -/
def State.initial (pending : Keyed String PendingFile PendingFile.name) (spool : List UInt8) :
    State N Moment BatchId where
  spool := spool
  pending := pending
  stage := .idle
  requests _ := none
  next := 0
  cloud := .initial
  taken := pending.rows.map (·.bytes)
  accepted := []
  deleted := []

inductive Action (N Moment BatchId : Type)
  /-- The recorder writes. -/
  | append (bytes : List UInt8)
  /-- The timer starts `main`; its URL and its token are set, or one is not. -/
  | start (configured : Bool)
  /-- `take_spool`, at a time. -/
  | takeSpool (now : ℕ)
  /-- The shipper's next statement. -/
  | goOn
  /-- The answer reaches the shipper. -/
  | accept
  /-- The post fails: the request is refused or times out, or its answer is lost. -/
  | refuse
  /-- The process stops. -/
  | stop
  /-- Suite Cloud begins with a request. -/
  | receive (request : ℕ) (settings : Settings N) (now : Moment)
  /-- It stages the next table's rows. -/
  | write (request : ℕ) (now : Moment)
  | answer (request : ℕ)
  /-- The request is lost, or breaks off. -/
  | drop (request : ℕ)
  /-- Another request stages a batch. -/
  | other (table : TelemetryTable) (file : Telemetry.File Moment BatchId (Fields N Moment))
  /-- A step of the loader. -/
  | load (action : Telemetry.Loading.Action Moment BatchId (Fields N Moment))

variable (s : State N Moment BatchId)

/-- `post` sends a request, and waits for it. -/
def State.post (records : List (Json N)) (stage : ℕ → Stage N) : State N Moment BatchId :=
  { s with
    requests := Function.update s.requests s.next (some ⟨body records, .sent⟩)
    next := s.next + 1
    stage := stage s.next }

/-- A request, gone on. -/
def State.goesOn (request : ℕ) (body : List Char) (progress : Progress N Moment BatchId) :
    State N Moment BatchId :=
  { s with requests := Function.update s.requests request (some ⟨body, progress⟩) }

def State.isAnswered (request : ℕ) : Bool :=
  match s.requests request with
  | some ⟨_, .answered⟩ => true
  | _ => false

/-- **The shipper's next statement.** -/
def State.goOn : Option (State N Moment BatchId) :=
  match s.stage with
  | .listing =>
      let pending := trimBacklog s.pending
      let files := (sortedFiles pending).map (·.name)
      some { s with pending := pending, stage := if files = [] then .checkIn else .opening files }
  | .checkIn => some (s.post [] .checkingIn)
  | .opening [] => some { s with stage := .returned true }
  | .opening (name :: files) =>
      match s.pending.get name with
      | some file => some { s with stage := .sending file (batchesOf setup file.bytes) files }
      | none => some { s with stage := .returned false }
  | .sending file (batch :: batches) files => some (s.post batch (.posting · file batch batches files))
  | .sending file [] files =>
      some { s with
        pending := s.pending.erase file.name
        stage := .opening files
        deleted := file.bytes :: s.deleted }
  | _ => none

/-- **One step of the system.** -/
def step (s : State N Moment BatchId) : Action N Moment BatchId → Option (State N Moment BatchId)
  | .append bytes => some { s with spool := s.spool ++ bytes }
  | .start configured =>
      match s.stage with
      | .idle | .returned _ | .unset => some { s with stage := if configured then .taking else .unset }
      | _ => none
  | .takeSpool now =>
      match s.stage with
      | .taking =>
          if s.spool = [] then some { s with stage := .listing }
          else some { s with
            spool := []
            pending := s.pending.save ⟨s!"{now}.jsonl", s.spool⟩
            stage := .listing
            taken := s.spool :: s.taken }
      | _ => none
  | .goOn => s.goOn setup
  | .accept =>
      match s.stage with
      | .checkingIn request =>
          if s.isAnswered request then some { s with stage := .returned true } else none
      | .posting request file batch batches files =>
          if s.isAnswered request then
            some { s with stage := .sending file batches files, accepted := batch :: s.accepted }
          else none
      | _ => none
  | .refuse =>
      match s.stage with
      | .checkingIn _ | .posting .. => some { s with stage := .returned false }
      | _ => none
  | .stop => some { s with stage := .idle }
  | .receive request settings now =>
      match s.requests request with
      | some ⟨body, .sent⟩ =>
          match (scansOf body).bind (outboundScans setup.runtime setup.server settings) with
          | some accepted => some (s.goesOn request body (.staging accepted.id now accepted.writes))
          | none => some { s with requests := Function.update s.requests request none }
      | _ => none
  | .write request now =>
      match s.requests request with
      | some ⟨body, .staging id receivedAt ((table, rows) :: writes)⟩ =>
          (Telemetry.Loading.step s.cloud
            (.write table ⟨id, receivedAt, now, .parquet table.schema rows⟩)).map fun cloud =>
              { s.goesOn request body (.staging id receivedAt writes) with cloud := cloud }
      | _ => none
  | .answer request =>
      match s.requests request with
      | some ⟨body, .staging _ _ []⟩ => some (s.goesOn request body .answered)
      | _ => none
  | .drop request => some { s with requests := Function.update s.requests request none }
  | .other table file =>
      (Telemetry.Loading.step s.cloud (.write table file)).map fun cloud => { s with cloud := cloud }
  | .load action => (Telemetry.Loading.step s.cloud action).map fun cloud => { s with cloud := cloud }

/-! ## The runs -/

/-- The records of a batch as they are sent. -/
def wire (batch : List (Json N)) : List (Json N) := batch.map Json.sortKeys

/-- The records of a file as they are sent. -/
def recordsOf (bytes : List UInt8) : List (Json N) := wire (getRecords (setup.decode bytes))

/-- **The runs of the claim's environment**: the records are distinct, no taken file is written to or
replaced, nothing is trimmed, and the other batches in the tables are of other sources; such a batch written
again has as many rows. -/
def steady (others : TelemetryTable → BatchId → Telemetry.Content Unit) (s : State N Moment BatchId) :
    Action N Moment BatchId → Prop
  | .append bytes =>
      (recordsOf setup (s.spool ++ bytes) ++ s.taken.flatMap (recordsOf setup)).Nodup
  | .takeSpool now => ∀ file ∈ s.pending, file.name ≠ s!"{now}.jsonl"
  | .goOn => s.stage.isListing = true → totalBytes (sortedFiles s.pending) ≤ maxBacklogBytes
  | .other table file =>
      (isScanTable table = true → ∀ scans, getBatchId setup.runtime setup.server scans ≠ some file.id) ∧
        file.content.map Fields.record = (others table file.id).map fun _ => none
  | .load (.write ..) => False
  | _ => True

/-! ## The records of a batch -/

/-- The batches of some files as they are sent, and the empty one. -/
def sentBatches (files : List (List UInt8)) : List (List (Json N)) :=
  [] :: files.flatMap fun bytes => (batchesOf setup bytes).map wire

variable {setup} {files files' : List (List UInt8)} {bytes : List UInt8} {batch batch' : List (Json N)}
  {record : Json N}

theorem keyed_getRecords {text : List Char} (member : record ∈ getRecords text) :
    Json.keyed record = true := by
  obtain ⟨line, -, read⟩ := List.mem_filterMap.mp member
  exact Json.keyed_of_loads (asRecord_eq_some read)

theorem flatten_batchesOf (bytes : List UInt8) :
    (batchesOf setup bytes).flatten = getRecords (setup.decode bytes) := flatten_batches (by decide)

theorem flatten_sentBatches (files : List (List UInt8)) :
    (sentBatches setup files).flatten = files.flatMap (recordsOf setup) := by
  unfold sentBatches
  rw [List.flatten_cons, List.nil_append]
  induction files with
  | nil => rfl
  | cons bytes files ih =>
    have first : ((batchesOf setup bytes).map wire).flatten = recordsOf setup bytes := by
      rw [recordsOf, ← flatten_batchesOf]
      exact List.map_flatten.symm
    rw [List.flatMap_cons, List.flatten_append, ih, first, List.flatMap_cons]

theorem wire_mem_sentBatches (taken : bytes ∈ files) (member : batch ∈ batchesOf setup bytes) :
    wire batch ∈ sentBatches setup files :=
  List.mem_cons_of_mem _ (List.mem_flatMap.mpr ⟨bytes, taken, List.mem_map_of_mem member⟩)

theorem sentBatches_subset (more : files ⊆ files') : sentBatches setup files ⊆ sentBatches setup files' := by
  refine List.cons_subset_cons _ fun batch member => ?_
  obtain ⟨bytes, taken, among⟩ := List.mem_flatMap.mp member
  exact List.mem_flatMap.mpr ⟨bytes, more taken, among⟩

theorem keyed_batchesOf (member : batch ∈ batchesOf setup bytes) :
    ∀ record ∈ batch, Json.keyed record = true := by
  intro record among
  have listed : record ∈ getRecords (setup.decode bytes) := by
    rw [← flatten_batchesOf]
    exact List.mem_flatten_of_mem member among
  exact keyed_getRecords listed

theorem settled_sentBatches (member : batch ∈ sentBatches setup files) :
    ∀ record ∈ batch, Json.keyed record = true ∧ Json.sortKeys record = record := by
  intro record among
  rcases List.mem_cons.mp member with rfl | later
  · cases among
  · obtain ⟨bytes, -, listed⟩ := List.mem_flatMap.mp later
    obtain ⟨before, cut, rfl⟩ := List.mem_map.mp listed
    obtain ⟨first, there, rfl⟩ := List.mem_map.mp among
    exact ⟨Json.keyed_sortKeys (keyed_batchesOf cut first there), Json.sortKeys_sortKeys first⟩

/-- **What is posted is what the method is called with**, with the keys in order. -/
theorem scansOf_body (keys : ∀ record ∈ batch, Json.keyed record = true) :
    scansOf (body batch) = some (wire batch) := by
  have written : Json.sortKeys (.object [("scans", .list batch)])
      = .object [("scans", .list (wire batch))] := by
    rw [Json.sortKeys_object, List.map_singleton, Json.sortKeys_list]
    rfl
  have distinct : Json.keyed (.object [("scans", Json.list batch)]) = true := by
    refine Json.keyed_object.mpr ⟨List.nodup_singleton _, fun member among => ?_⟩
    rw [List.mem_singleton.mp among]
    exact Json.keyedItems_iff.mpr keys
  have read := Json.loads_dumps postStyle (Json.keyed_sortKeys distinct)
  rw [scansOf, body, read, written]
  rfl

theorem recordsOf_nil : recordsOf setup [] = [] := by
  unfold recordsOf
  rw [setup.decode_nil]
  rfl

theorem trimBacklog_eq {pending : Keyed String PendingFile PendingFile.name}
    (fits : totalBytes (sortedFiles pending) ≤ maxBacklogBytes) : trimBacklog pending = pending := by
  have none : dropped (sortedFiles pending) (totalBytes (sortedFiles pending)) = [] := by
    cases listed : sortedFiles pending with
    | nil => rfl
    | cons oldest files =>
      rw [listed] at fits
      exact if_neg (not_lt.mpr fits)
  rw [trimBacklog, none, List.foldl_nil]

theorem mem_sortedFiles {pending : Keyed String PendingFile PendingFile.name} {file : PendingFile} :
    file ∈ sortedFiles pending ↔ file ∈ pending := List.mem_insertionSort _

end SuiteCloud.Provisioning.Rspamd.Shipping
