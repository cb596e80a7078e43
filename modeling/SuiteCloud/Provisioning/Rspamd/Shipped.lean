/-
**The outbound scans: every record is stored once.**

A batch is staged under an id that tells it from every other batch of the files, so what the tables hold of an
id is what its batch holds, however often it was sent and whichever settings its rows carry.

* `contents` — what each batch holds, by the records its rows are of; `contents_sent`.
* `Stored` — a batch is staged or loaded; `stored_step` — **it stays so**.
* `Sane` — **the invariant**: what the requests under way have staged, what the shipper has still to post;
  `sane_step`.
* `shipped` — the records in the table of the scans, once what is staged is loaded; `mem_shipped`.
* `scans_stored_once` — **every record is stored at most once**, and the records that parse are stored once a
  run with its URL and token has ended with success.
-/

import Mathlib.Data.List.Count
import Mathlib.Data.List.Pairwise
import SuiteCloud.Provisioning.Rspamd.Shipping

set_option linter.unusedSectionVars false

namespace SuiteCloud.Provisioning.Rspamd.Shipping

open SuiteCloud.Library SuiteCloud.Telemetry.OutboundScans

open Telemetry (TelemetryTable)

open Telemetry.Loading (stored rowsOf Sound Loaded Kept Readable)

variable {N Moment BatchId : Type} [Numeral N] [LinearOrder Moment] [DecidableEq BatchId]

/-! ## What each batch holds -/

/-- The cloud, with the record of each row in place of its fields. -/
def labelled (cloud : Telemetry.Loading.State Moment BatchId (Fields N Moment)) :
    Telemetry.Loading.State Moment BatchId (Option (Json N)) := cloud.map Fields.record

/-- **What each batch holds**: the batches of the files, and the others. -/
def contents (setup : Setup N Moment BatchId) (others : TelemetryTable → BatchId → Telemetry.Content Unit)
    (files : List (List UInt8)) (table : TelemetryTable) (id : BatchId) :
    Telemetry.Content (Option (Json N)) :=
  match (sentBatches setup files).find? fun batch =>
      isScanTable table && decide (getBatchId setup.runtime setup.server batch = some id) with
  | some batch => .parquet table.schema (recordsIn setup.runtime batch table)
  | none => (others table id).map fun _ => none

/-- **A batch is stored**: the table of the scans holds the records of it that parse, or is about to. -/
def Stored (setup : Setup N Moment BatchId)
    (cloud : Telemetry.Loading.State Moment BatchId (Option (Json N))) (batch : List (Json N)) : Prop :=
  ∃ id, getBatchId setup.runtime setup.server batch = some id ∧
    (recordsIn setup.runtime batch .outboundScans = [] ∨ cloud.spool.Present .outboundScans id ∨
      stored (cloud.rows .outboundScans) id = recordsIn setup.runtime batch .outboundScans)

/-- What Suite Cloud holds is what the batches of the files hold. -/
structure Whole (batches : TelemetryTable → BatchId → Telemetry.Content (Option (Json N)))
    (cloud : Telemetry.Loading.State Moment BatchId (Option (Json N))) : Prop where
  sound : Sound batches cloud
  loaded : Loaded batches cloud

variable {setup : Setup N Moment BatchId} {others : TelemetryTable → BatchId → Telemetry.Content Unit}
  {files : List (List UInt8)} {table : TelemetryTable} {id : BatchId} {batch batch' : List (Json N)}
  {cloud cloud' : Telemetry.Loading.State Moment BatchId (Option (Json N))}
  {action : Telemetry.Loading.Action Moment BatchId (Option (Json N))} {record : Json N}

/-- The digests and the names derived from them tell texts apart. -/
structure Apart (setup : Setup N Moment BatchId) : Prop where
  digests : Function.Injective setup.runtime.sha256
  names : Function.Injective setup.runtime.uuid5

theorem Apart.same_batch (apart : Apart setup) (first : batch ∈ sentBatches setup files)
    (second : batch' ∈ sentBatches setup files)
    (named : getBatchId setup.runtime setup.server batch = some id)
    (named' : getBatchId setup.runtime setup.server batch' = some id) : batch = batch' := by
  have settled := settled_sentBatches first
  have settled' := settled_sentBatches second
  have same := getBatchId_inj apart.digests apart.names (fun scan among => (settled scan among).1)
    (fun scan among => (settled' scan among).1) named named'
  rw [List.map_congr_left fun scan among => (settled scan among).2,
    List.map_congr_left fun scan among => (settled' scan among).2, List.map_id', List.map_id'] at same
  exact same

theorem contents_sent (apart : Apart setup) (sent : batch ∈ sentBatches setup files)
    (named : getBatchId setup.runtime setup.server batch = some id) (scans : isScanTable table = true) :
    contents setup others files table id = .parquet table.schema (recordsIn setup.runtime batch table) := by
  unfold contents
  have fits : (isScanTable table && decide (getBatchId setup.runtime setup.server batch = some id))
      = true := by
    rw [scans, decide_eq_true named]
    rfl
  cases found : (sentBatches setup files).find? fun batch =>
      isScanTable table && decide (getBatchId setup.runtime setup.server batch = some id) with
  | none => exact absurd fits (List.find?_eq_none.mp found batch sent)
  | some other =>
    have named' := List.find?_some found
    rw [Bool.and_eq_true, decide_eq_true_iff] at named'
    rw [apart.same_batch (List.mem_of_find?_eq_some found) sent named'.2 named]

theorem contents_other (foreign : isScanTable table = true →
      ∀ scans, getBatchId setup.runtime setup.server scans ≠ some id) :
    contents setup others files table id = (others table id).map fun _ => none := by
  unfold contents
  cases found : (sentBatches setup files).find? fun batch =>
      isScanTable table && decide (getBatchId setup.runtime setup.server batch = some id) with
  | none => rfl
  | some batch =>
    have named := List.find?_some found
    rw [Bool.and_eq_true, decide_eq_true_iff] at named
    exact absurd named.2 (foreign named.1 batch)

theorem rowsOf_sent (apart : Apart setup) (sent : batch ∈ sentBatches setup files)
    (named : getBatchId setup.runtime setup.server batch = some id) (scans : isScanTable table = true) :
    Readable (contents setup others files) table id ∧
      rowsOf (contents setup others files) table id = recordsIn setup.runtime batch table := by
  have loadable : (contents setup others files table id).loadable table
      = some (recordsIn setup.runtime batch table) := by
    rw [contents_sent apart sent named scans]
    exact if_pos rfl
  unfold Readable rowsOf
  rw [loadable]
  exact ⟨rfl, rfl⟩

theorem sent_of_mem_rowsOf (member : some record ∈ rowsOf (contents setup others files) .outboundScans id) :
    ∃ batch ∈ sentBatches setup files, record ∈ batch ∧ parses setup.runtime record = true ∧
      getBatchId setup.runtime setup.server batch = some id := by
  unfold rowsOf contents at member
  cases found : (sentBatches setup files).find? fun batch =>
      isScanTable .outboundScans && decide (getBatchId setup.runtime setup.server batch = some id) with
  | none =>
    rw [found] at member
    simp only [Telemetry.Content.loadable_map] at member
    cases holds : (others .outboundScans id).loadable .outboundScans with
    | none =>
      rw [holds] at member
      cases member
    | some rows =>
      rw [holds] at member
      obtain ⟨_, -, none⟩ := List.mem_map.mp member
      cases none
  | some batch =>
    rw [found] at member
    have named := List.find?_some found
    rw [Bool.and_eq_true, decide_eq_true_iff] at named
    have listed : some record ∈ recordsIn setup.runtime batch .outboundScans := member
    obtain ⟨scan, among, same⟩ := List.mem_map.mp listed
    obtain rfl := Option.some.inj same
    obtain ⟨inside, reads⟩ := List.mem_filter.mp among
    exact ⟨batch, List.mem_of_find?_eq_some found, inside, reads, named.2⟩

/-! ### A batch stays stored -/

theorem stored_iff_kept (apart : Apart setup) (sent : batch ∈ sentBatches setup files)
    (named : getBatchId setup.runtime setup.server batch = some id) :
    Stored setup cloud batch ↔ recordsIn setup.runtime batch .outboundScans = [] ∨
      Kept (contents setup others files) cloud .outboundScans id := by
  unfold Stored Kept
  rw [(rowsOf_sent apart sent named rfl).2]
  constructor
  · rintro ⟨other, named', held⟩
    obtain rfl := Option.some.inj (named.symm.trans named')
    exact held
  · exact fun held => ⟨id, named, held⟩

theorem stored_step (apart : Apart setup) (whole : Whole (contents setup others files) cloud)
    (sent : batch ∈ sentBatches setup files) (taken : Telemetry.Loading.step cloud action = some cloud')
    (held : Stored setup cloud batch) : Stored setup cloud' batch := by
  obtain ⟨id, named, -⟩ := id held
  have same : ∀ cloud, Stored setup cloud batch ↔ recordsIn setup.runtime batch .outboundScans = [] ∨
      Kept (contents setup others files) cloud .outboundScans id :=
    fun cloud => stored_iff_kept apart sent named
  refine (same cloud').mpr (((same cloud).mp held).imp_right fun there => ?_)
  exact Telemetry.Loading.kept_step whole.sound whole.loaded (rowsOf_sent apart sent named rfl).1 taken there

theorem Whole.step (whole : Whole (contents setup others files) cloud)
    (same : Telemetry.Loading.resends (contents setup others files) cloud action)
    (taken : Telemetry.Loading.step cloud action = some cloud') :
    Whole (contents setup others files) cloud' :=
  ⟨Telemetry.Loading.sound_step whole.sound same taken,
    Telemetry.Loading.loaded_step whole.sound whole.loaded taken⟩

/-! ## The invariant -/

variable (setup) in
/-- **What a request has come to**: what it has still to stage is of its batch, and the rest is stored. -/
def ProgressSane (cloud : Telemetry.Loading.State Moment BatchId (Option (Json N))) (batch : List (Json N)) :
    Progress N Moment BatchId → Prop
  | .sent => True
  | .staging id _ writes =>
      getBatchId setup.runtime setup.server batch = some id ∧
        (∀ write ∈ writes, isScanTable write.1 = true ∧
          write.2.map Fields.record = recordsIn setup.runtime batch write.1) ∧
        ((∃ rows, (.outboundScans, rows) ∈ writes) ∨ Stored setup cloud batch)
  | .answered => Stored setup cloud batch

variable (setup) in
/-- A request is of one of the batches of the files. -/
def RequestSane (s : State N Moment BatchId) (request : Request N Moment BatchId) : Prop :=
  ∃ batch ∈ sentBatches setup s.taken, scansOf request.body = some batch ∧
    ProgressSane setup (labelled s.cloud) batch request.progress

variable (setup) in
/-- **A file being sent**: the batches posted before were accepted. -/
structure Sending (s : State N Moment BatchId) (file : PendingFile) (batches : List (List (Json N)))
    (names : List String) : Prop where
  pending : file ∈ s.pending
  left : ∀ other ∈ s.pending, other.name = file.name ∨ other.name ∈ names
  posted : ∃ done, batchesOf setup file.bytes = done ++ batches ∧ ∀ batch ∈ done, batch ∈ s.accepted

variable (setup) in
/-- **What a stage of the shipper knows.** -/
def StageSane (s : State N Moment BatchId) : Stage N → Prop
  | .checkIn | .checkingIn _ | .returned true => ∀ file, file ∉ s.pending
  | .opening names => ∀ file ∈ s.pending, file.name ∈ names
  | .sending file batches names => Sending setup s file batches names
  | .posting request file batch batches names => Sending setup s file (batch :: batches) names ∧
      ∀ other, s.requests request = some other → scansOf other.body = some (wire batch)
  | _ => True

/-- **The invariant.** -/
structure Sane (setup : Setup N Moment BatchId) (others : TelemetryTable → BatchId → Telemetry.Content Unit)
    (s : State N Moment BatchId) : Prop where
  distinct : (recordsOf setup s.spool ++ s.taken.flatMap (recordsOf setup)).Nodup
  pending : ∀ file ∈ s.pending, file.bytes ∈ s.taken
  taken : ∀ bytes ∈ s.taken, bytes ∈ s.deleted ∨ ∃ file ∈ s.pending, file.bytes = bytes
  cloud : ∀ files, s.taken ⊆ files → Whole (contents setup others files) (labelled s.cloud)
  requests : ∀ n request, s.requests n = some request → RequestSane setup s request
  stage : StageSane setup s s.stage
  accepted : ∀ batch ∈ s.accepted, wire batch ∈ sentBatches setup s.taken ∧
    Stored setup (labelled s.cloud) (wire batch)
  deleted : ∀ bytes ∈ s.deleted, ∀ batch ∈ batchesOf setup bytes, batch ∈ s.accepted

variable {s s' : State N Moment BatchId}

theorem ProgressSane.mono {progress : Progress N Moment BatchId}
    (kept : Stored setup cloud batch → Stored setup cloud' batch)
    (sane : ProgressSane setup cloud batch progress) :
    ProgressSane setup cloud' batch progress := by
  cases progress with
  | sent => trivial
  | staging id receivedAt writes => exact ⟨sane.1, sane.2.1, sane.2.2.imp_right kept⟩
  | answered => exact kept sane

/-- **A step of Suite Cloud**: it goes on with the requests it has, and stores no less. -/
theorem Sane.serves (sane : Sane setup others s)
    {stored : Telemetry.Loading.State Moment BatchId (Fields N Moment)}
    {requests : ℕ → Option (Request N Moment BatchId)}
    (whole : ∀ files, s.taken ⊆ files → Whole (contents setup others files) (labelled stored))
    (kept : ∀ batch ∈ sentBatches setup s.taken, Stored setup (labelled s.cloud) batch →
      Stored setup (labelled stored) batch)
    (goesOn : ∀ n request, requests n = some request → ∃ before, s.requests n = some before ∧
      before.body = request.body ∧ ∀ batch ∈ sentBatches setup s.taken, scansOf request.body = some batch →
        ProgressSane setup (labelled s.cloud) batch before.progress →
          ProgressSane setup (labelled stored) batch request.progress) :
    Sane setup others { s with cloud := stored, requests := requests } where
  distinct := sane.distinct
  pending := sane.pending
  taken := sane.taken
  cloud := whole
  requests n request here := by
    obtain ⟨before, there, same, progress⟩ := goesOn n request here
    obtain ⟨batch, sent, called, knows⟩ := sane.requests n before there
    rw [same] at called
    exact ⟨batch, sent, called, progress batch sent called knows⟩
  stage := by
    have knows := sane.stage
    show StageSane setup _ s.stage
    cases stage : s.stage with
    | posting request file batch batches names =>
      rw [stage] at knows
      refine ⟨⟨knows.1.pending, knows.1.left, knows.1.posted⟩, fun other here => ?_⟩
      obtain ⟨before, there, same, -⟩ := goesOn request other here
      rw [← same]
      exact knows.2 before there
    | sending file batches names =>
      rw [stage] at knows
      exact ⟨knows.pending, knows.left, knows.posted⟩
    | returned success =>
      rw [stage] at knows
      cases success with
      | true => exact knows
      | false => trivial
    | _ =>
      rw [stage] at knows
      exact knows
  accepted batch member := (sane.accepted batch member).imp_right (kept _ (sane.accepted batch member).1)
  deleted := sane.deleted

theorem Sane.cloud_step (apart : Apart setup) (sane : Sane setup others s)
    {action : Telemetry.Loading.Action Moment BatchId (Fields N Moment)}
    {cloud : Telemetry.Loading.State Moment BatchId (Fields N Moment)}
    (same : ∀ files, s.taken ⊆ files →
      Telemetry.Loading.resends (contents setup others files) (labelled s.cloud) (action.map Fields.record))
    (taken : Telemetry.Loading.step s.cloud action = some cloud) :
    (∀ files, s.taken ⊆ files → Whole (contents setup others files) (labelled cloud)) ∧
      ∀ batch ∈ sentBatches setup s.taken, Stored setup (labelled s.cloud) batch →
        Stored setup (labelled cloud) batch := by
  have shows : Telemetry.Loading.step (labelled s.cloud) (action.map Fields.record)
      = some (labelled cloud) := by
    unfold labelled
    rw [Telemetry.Loading.step_map, taken]
    rfl
  refine ⟨fun files more => (sane.cloud files more).step (same files more) shows, fun batch sent held => ?_⟩
  exact stored_step apart (sane.cloud s.taken (List.Subset.refl _)) sent shows held

/-! ### Suite Cloud's steps -/

theorem update_eq_some {requests : ℕ → Option (Request N Moment BatchId)} {n m : ℕ}
    {put : Option (Request N Moment BatchId)} {request : Request N Moment BatchId}
    (here : Function.update requests n put m = some request) :
    (m = n ∧ put = some request) ∨ requests m = some request := by
  by_cases same : m = n
  · subst same
    rw [Function.update_self] at here
    exact Or.inl ⟨rfl, here⟩
  · rw [Function.update_of_ne same] at here
    exact Or.inr here

theorem Sane.goesOn (sane : Sane setup others s) {n : ℕ} {body : List Char}
    {before after : Progress N Moment BatchId}
    (here : s.requests n = some ⟨body, before⟩)
    {stored : Telemetry.Loading.State Moment BatchId (Fields N Moment)}
    (whole : ∀ files, s.taken ⊆ files → Whole (contents setup others files) (labelled stored))
    (kept : ∀ batch ∈ sentBatches setup s.taken, Stored setup (labelled s.cloud) batch →
      Stored setup (labelled stored) batch)
    (progress : ∀ batch ∈ sentBatches setup s.taken, scansOf body = some batch →
      ProgressSane setup (labelled s.cloud) batch before → ProgressSane setup (labelled stored) batch after) :
    Sane setup others { s.goesOn n body after with cloud := stored } := by
  refine sane.serves whole kept fun m request there => ?_
  rcases update_eq_some there with ⟨rfl, same⟩ | there
  · obtain rfl := Option.some.inj same
    exact ⟨_, here, rfl, progress⟩
  · exact ⟨request, there, rfl, fun batch sent _ knows => knows.mono (kept batch sent)⟩

theorem Sane.drops (sane : Sane setup others s) (n : ℕ) :
    Sane setup others { s with requests := Function.update s.requests n none } := by
  refine sane.serves sane.cloud (fun _ _ held => held) fun m request there => ?_
  rcases update_eq_some there with ⟨rfl, same⟩ | there
  · cases same
  · exact ⟨request, there, rfl, fun _ _ _ knows => knows⟩

/-- **A request is taken up.** -/
theorem Sane.receive (sane : Sane setup others s) {n : ℕ} {settings : Settings N} {now : Moment}
    (taken : step setup s (.receive n settings now) = some s') : Sane setup others s' := by
  simp only [step] at taken
  split at taken
  · next body here =>
    split at taken
    · next accepted made =>
      obtain rfl := Option.some.inj taken
      refine sane.goesOn here sane.cloud (fun _ _ held => held) fun batch sent called _ => ?_
      rw [called, Option.bind_some] at made
      obtain ⟨named, conform, some⟩ := outboundScans_eq made
      refine ⟨named, conform, ?_⟩
      by_cases none : recordsIn setup.runtime batch .outboundScans = []
      · exact Or.inr ⟨accepted.id, named, Or.inl none⟩
      · exact Or.inl (some none)
    · exact Option.some.inj taken ▸ sane.drops n
  · cases taken

/-- **The rows of a table are staged**: they are those of the batch of the id. -/
theorem Sane.write (apart : Apart setup) (sane : Sane setup others s) {n : ℕ} {now : Moment}
    (taken : step setup s (.write n now) = some s') : Sane setup others s' := by
  simp only [step] at taken
  split at taken
  · next body id receivedAt table rows writes here =>
    obtain ⟨cloud, staged, rfl⟩ := Option.map_eq_some_iff.mp taken
    obtain ⟨batch, sent, called, named, conform, -⟩ := sane.requests n _ here
    obtain ⟨scans, holds⟩ := conform _ List.mem_cons_self
    have same : ∀ files, s.taken ⊆ files →
        Telemetry.Loading.resends (contents setup others files) (labelled s.cloud)
          (Telemetry.Loading.Action.map Fields.record
            (.write table ⟨id, receivedAt, now, .parquet table.schema rows⟩)) := by
      intro files more
      show Telemetry.Content.parquet table.schema (rows.map Fields.record)
        = contents setup others files table id
      rw [contents_sent apart (sentBatches_subset more sent) named scans, holds]
    obtain ⟨whole, kept⟩ := sane.cloud_step apart same staged
    refine sane.goesOn here whole kept fun batch' sent' called' knows => ?_
    obtain ⟨named', conform', rest⟩ := knows
    refine ⟨named', fun write member => conform' write (List.mem_cons_of_mem _ member), ?_⟩
    rcases rest with ⟨left, member⟩ | held
    · rcases List.mem_cons.mp member with first | later
      · obtain ⟨rfl, rfl⟩ := Prod.mk.inj first
        have present : (labelled cloud).spool.Present .outboundScans id := by
          obtain rfl := Option.some.inj staged
          exact ⟨_, List.mem_map_of_mem (Telemetry.Spool.mem_write.mpr (Or.inl ⟨rfl, rfl⟩)), rfl⟩
        exact Or.inr ⟨id, named', Or.inr (Or.inl present)⟩
      · exact Or.inl ⟨left, later⟩
    · exact Or.inr (kept batch' sent' held)
  · cases taken

theorem Sane.answer (sane : Sane setup others s) {n : ℕ} (taken : step setup s (.answer n) = some s') :
    Sane setup others s' := by
  simp only [step] at taken
  split at taken
  · next body id receivedAt here =>
    obtain rfl := Option.some.inj taken
    refine sane.goesOn here sane.cloud (fun _ _ held => held) fun batch sent called knows => ?_
    exact knows.2.2.resolve_left fun ⟨rows, member⟩ => absurd member List.not_mem_nil
  · cases taken

theorem Sane.cloud_only (apart : Apart setup) (sane : Sane setup others s)
    {action : Telemetry.Loading.Action Moment BatchId (Fields N Moment)}
    (same : ∀ files, s.taken ⊆ files →
      Telemetry.Loading.resends (contents setup others files) (labelled s.cloud) (action.map Fields.record))
    {cloud : Telemetry.Loading.State Moment BatchId (Fields N Moment)}
    (goes : Telemetry.Loading.step s.cloud action = some cloud) :
    Sane setup others { s with cloud := cloud } := by
  obtain ⟨whole, kept⟩ := sane.cloud_step apart same goes
  refine sane.serves whole kept fun n request there => ?_
  exact ⟨request, there, rfl, fun batch sent _ knows => knows.mono (kept batch sent)⟩

/-! ### The shipper's steps -/

/-- The shipper goes on, and nothing else changes. -/
theorem Sane.at (sane : Sane setup others s) {stage : Stage N}
    (knows : StageSane setup { s with stage := stage } stage) :
    Sane setup others { s with stage := stage } where
  distinct := sane.distinct
  pending := sane.pending
  taken := sane.taken
  cloud := sane.cloud
  requests := sane.requests
  stage := knows
  accepted := sane.accepted
  deleted := sane.deleted

theorem Sane.append (sane : Sane setup others s) {bytes : List UInt8}
    (distinct : (recordsOf setup (s.spool ++ bytes) ++ s.taken.flatMap (recordsOf setup)).Nodup) :
    Sane setup others { s with spool := s.spool ++ bytes } where
  distinct := distinct
  pending := sane.pending
  taken := sane.taken
  cloud := sane.cloud
  requests := sane.requests
  stage := by
    have knows := sane.stage
    show StageSane setup _ s.stage
    cases stage : s.stage with
    | posting request file batch batches names =>
      rw [stage] at knows
      exact ⟨⟨knows.1.pending, knows.1.left, knows.1.posted⟩, knows.2⟩
    | sending file batches names =>
      rw [stage] at knows
      exact ⟨knows.pending, knows.left, knows.posted⟩
    | returned success =>
      rw [stage] at knows
      cases success with
      | true => exact knows
      | false => trivial
    | _ =>
      rw [stage] at knows
      exact knows
  accepted := sane.accepted
  deleted := sane.deleted

theorem Sane.takeSpool (sane : Sane setup others s) {now : ℕ}
    (fresh : ∀ file ∈ s.pending, file.name ≠ s!"{now}.jsonl")
    (taken : step setup s (.takeSpool now) = some s') : Sane setup others s' := by
  simp only [step] at taken
  split at taken
  · split at taken
    · obtain rfl := Option.some.inj taken
      exact sane.at trivial
    · obtain rfl := Option.some.inj taken
      have members : ∀ file, file ∈ s.pending.save ⟨s!"{now}.jsonl", s.spool⟩ ↔
          file = ⟨s!"{now}.jsonl", s.spool⟩ ∨ file ∈ s.pending := fun file =>
        Keyed.mem_save.trans (or_congr_right (and_iff_left_of_imp (fresh file)))
      have more : s.taken ⊆ s.spool :: s.taken := List.subset_cons_self _ _
      refine ⟨?_, ?_, ?_, ?_, ?_, trivial, ?_, sane.deleted⟩
      · show (recordsOf setup [] ++ (s.spool :: s.taken).flatMap (recordsOf setup)).Nodup
        rw [recordsOf_nil, List.nil_append, List.flatMap_cons]
        exact sane.distinct
      · intro file there
        rcases (members file).mp there with rfl | before
        · exact List.mem_cons_self
        · exact more (sane.pending file before)
      · intro bytes among
        rcases List.mem_cons.mp among with rfl | before
        · exact Or.inr ⟨_, (members _).mpr (Or.inl rfl), rfl⟩
        · refine (sane.taken bytes before).imp_right fun ⟨file, there, same⟩ => ?_
          exact ⟨file, (members file).mpr (Or.inr there), same⟩
      · exact fun files more' => sane.cloud files (List.Subset.trans more more')
      · intro n request here
        obtain ⟨batch, sent, called, knows⟩ := sane.requests n request here
        exact ⟨batch, sentBatches_subset more sent, called, knows⟩
      · intro batch member
        exact (sane.accepted batch member).imp_left fun sent => sentBatches_subset more sent
  · cases taken

/-- **A request is sent**, of a batch of the files. -/
theorem Sane.post (sane : Sane setup others s) {records : List (Json N)} {stage : ℕ → Stage N}
    (keys : ∀ record ∈ records, Json.keyed record = true) (sent : wire records ∈ sentBatches setup s.taken)
    (knows : StageSane setup (s.post records stage) (stage s.next)) :
    Sane setup others (s.post records stage) where
  distinct := sane.distinct
  pending := sane.pending
  taken := sane.taken
  cloud := sane.cloud
  requests n request here := by
    rcases update_eq_some here with ⟨-, same⟩ | before
    · obtain rfl := Option.some.inj same
      exact ⟨wire records, sent, scansOf_body keys, trivial⟩
    · exact sane.requests n request before
  stage := knows
  accepted := sane.accepted
  deleted := sane.deleted

/-- The batches of a file being sent are batches of the files. -/
theorem Sending.sent {file : PendingFile} {batches : List (List (Json N))} {names : List String}
    (sane : Sane setup others s) (sending : Sending setup s file (batch :: batches) names) :
    batch ∈ batchesOf setup file.bytes ∧ wire batch ∈ sentBatches setup s.taken := by
  obtain ⟨done, cut, -⟩ := sending.posted
  have member : batch ∈ batchesOf setup file.bytes := cut ▸ List.mem_append_right _ List.mem_cons_self
  exact ⟨member, wire_mem_sentBatches (sane.pending file sending.pending) member⟩

/-- **A file is deleted** once its batches were accepted. -/
theorem Sane.deletes (sane : Sane setup others s) {file : PendingFile} {names : List String}
    (sending : Sending setup s file [] names) :
    Sane setup others { s with
      pending := s.pending.erase file.name
      stage := .opening names
      deleted := file.bytes :: s.deleted } where
  distinct := sane.distinct
  pending other there := sane.pending other (Keyed.mem_erase.mp there).1
  taken bytes among := by
    rcases sane.taken bytes among with gone | ⟨other, there, rfl⟩
    · exact Or.inl (List.mem_cons_of_mem _ gone)
    · by_cases same : other.name = file.name
      · obtain rfl := Keyed.eq_of_key there sending.pending same
        exact Or.inl List.mem_cons_self
      · exact Or.inr ⟨other, Keyed.mem_erase.mpr ⟨there, same⟩, rfl⟩
  cloud := sane.cloud
  requests := sane.requests
  stage := fun other there =>
    (sending.left other (Keyed.mem_erase.mp there).1).resolve_left (Keyed.mem_erase.mp there).2
  accepted := sane.accepted
  deleted bytes among batch member := by
    rcases List.mem_cons.mp among with rfl | before
    · obtain ⟨done, cut, accepted⟩ := sending.posted
      rw [cut, List.append_nil] at member
      exact accepted batch member
    · exact sane.deleted bytes before batch member

theorem Sane.goOn (sane : Sane setup others s)
    (fits : s.stage.isListing = true → totalBytes (sortedFiles s.pending) ≤ maxBacklogBytes)
    (taken : s.goOn setup = some s') : Sane setup others s' := by
  have knows := sane.stage
  unfold State.goOn at taken
  split at taken
  · next listing =>
    have all : trimBacklog s.pending = s.pending := trimBacklog_eq (fits (listing ▸ rfl))
    simp only [all] at taken
    obtain rfl := Option.some.inj taken
    split
    · next none =>
      refine sane.at fun file there => ?_
      have listed : file.name ∈ (sortedFiles s.pending).map (·.name) :=
        List.mem_map_of_mem (mem_sortedFiles.mpr there)
      rw [none] at listed
      cases listed
    · exact sane.at fun file there => List.mem_map_of_mem (mem_sortedFiles.mpr there)
  · next stage =>
    rw [stage] at knows
    obtain rfl := Option.some.inj taken
    exact sane.post (fun _ none => absurd none List.not_mem_nil) List.mem_cons_self knows
  · next stage =>
    rw [stage] at knows
    obtain rfl := Option.some.inj taken
    exact sane.at fun file there => absurd (knows file there) List.not_mem_nil
  · next name names stage =>
    rw [stage] at knows
    split at taken
    · next file found =>
      obtain ⟨there, rfl⟩ := Keyed.get_eq_some.mp found
      obtain rfl := Option.some.inj taken
      refine sane.at ⟨there, fun other here => List.mem_cons.mp (knows other here), [], rfl, ?_⟩
      exact fun _ none => absurd none List.not_mem_nil
    · obtain rfl := Option.some.inj taken
      exact sane.at trivial
  · next file batch batches names stage =>
    rw [stage] at knows
    have sending : Sending setup s file (batch :: batches) names := knows
    obtain ⟨member, sent⟩ := sending.sent sane
    obtain rfl := Option.some.inj taken
    refine sane.post (keyed_batchesOf member) sent ⟨⟨sending.pending, sending.left, sending.posted⟩, ?_⟩
    intro other here
    have same : Function.update s.requests s.next (some ⟨body batch, .sent⟩) s.next = some other := here
    rw [Function.update_self] at same
    obtain rfl := Option.some.inj same
    exact scansOf_body (keyed_batchesOf member)
  · next file names stage =>
    rw [stage] at knows
    obtain rfl := Option.some.inj taken
    exact sane.deletes knows
  · cases taken

/-- **A batch is accepted**: the request that was answered has stored it. -/
theorem Sane.accept (sane : Sane setup others s) (taken : step setup s .accept = some s') :
    Sane setup others s' := by
  have knows := sane.stage
  simp only [step] at taken
  split at taken
  · next request stage =>
    rw [stage] at knows
    split at taken
    · obtain rfl := Option.some.inj taken
      exact sane.at knows
    · cases taken
  · next request file batch batches names stage =>
    rw [stage] at knows
    obtain ⟨sending, called⟩ := knows
    split at taken
    · next answered =>
      obtain rfl := Option.some.inj taken
      have held : Stored setup (labelled s.cloud) (wire batch) := by
        unfold State.isAnswered at answered
        split at answered
        · next body here =>
          obtain ⟨other, -, called', knows⟩ := sane.requests request _ here
          obtain rfl := Option.some.inj ((called _ here).symm.trans called')
          exact knows
        · cases answered
      obtain ⟨done, cut, before⟩ := sending.posted
      refine ⟨sane.distinct, sane.pending, sane.taken, sane.cloud, sane.requests,
        ⟨sending.pending, sending.left, done ++ [batch], ?_, ?_⟩, ?_, ?_⟩
      · rw [List.append_assoc, List.singleton_append]
        exact cut
      · intro other member
        rcases List.mem_append.mp member with first | last
        · exact List.mem_cons_of_mem _ (before other first)
        · exact List.mem_singleton.mp last ▸ List.mem_cons_self
      · intro other member
        rcases List.mem_cons.mp member with rfl | earlier
        · exact ⟨(sending.sent sane).2, held⟩
        · exact sane.accepted other earlier
      · exact fun bytes gone other member => List.mem_cons_of_mem _ (sane.deleted bytes gone other member)
    · cases taken
  · cases taken

theorem sane_step (apart : Apart setup) (sane : Sane setup others s) {action : Action N Moment BatchId}
    (allowed : steady setup others s action) (taken : step setup s action = some s') :
    Sane setup others s' := by
  cases action with
  | append bytes => exact Option.some.inj taken ▸ sane.append allowed
  | start configured =>
    have started : Sane setup others { s with stage := if configured then .taking else .unset } := by
      refine sane.at ?_
      cases configured with
      | true => trivial
      | false => trivial
    simp only [step] at taken
    split at taken
    · exact Option.some.inj taken ▸ started
    · exact Option.some.inj taken ▸ started
    · exact Option.some.inj taken ▸ started
    · cases taken
  | takeSpool now => exact sane.takeSpool allowed taken
  | goOn => exact sane.goOn allowed taken
  | accept => exact sane.accept taken
  | refuse =>
    simp only [step] at taken
    split at taken
    · exact Option.some.inj taken ▸ sane.at trivial
    · exact Option.some.inj taken ▸ sane.at trivial
    · cases taken
  | stop => exact Option.some.inj taken ▸ sane.at trivial
  | receive request settings now => exact sane.receive taken
  | write request now => exact sane.write apart taken
  | answer request => exact sane.answer taken
  | drop request => exact Option.some.inj taken ▸ sane.drops request
  | other table file =>
    rw [step] at taken
    obtain ⟨cloud, goes, rfl⟩ := Option.map_eq_some_iff.mp taken
    refine sane.cloud_only apart (fun files _ => ?_) goes
    exact allowed.2.trans (contents_other allowed.1).symm
  | load action =>
    obtain ⟨cloud, goes, rfl⟩ := Option.map_eq_some_iff.mp taken
    refine sane.cloud_only apart (fun files _ => ?_) goes
    cases action with
    | write table file => exact allowed.elim
    | _ => trivial

theorem sane_initial {pending : Keyed String PendingFile PendingFile.name} {spool : List UInt8}
    (distinct : (recordsOf setup spool ++
      pending.rows.flatMap fun file => recordsOf setup file.bytes).Nodup) :
    Sane setup others (State.initial pending spool : State N Moment BatchId) where
  distinct := by
    show (_ ++ (pending.rows.map (·.bytes)).flatMap (recordsOf setup)).Nodup
    rw [List.flatMap_map]
    exact distinct
  pending file there := List.mem_map_of_mem there
  taken bytes among := Or.inr (List.mem_map.mp among)
  cloud _ _ := ⟨Telemetry.Loading.sound_initial, Telemetry.Loading.loaded_initial⟩
  requests n request none := by cases none
  stage := trivial
  accepted batch none := absurd none List.not_mem_nil
  deleted bytes none := absurd none List.not_mem_nil

/-! ## What is stored of each record -/

/-- **The records stored**: those of the rows of the table, once what is staged is loaded. -/
def shipped (s : State N Moment BatchId) : List (Json N) :=
  (s.cloud.settled .outboundScans).filterMap fun row => row.fields.record

theorem shipped_eq (s : State N Moment BatchId) :
    shipped s = ((labelled s.cloud).settled .outboundScans).filterMap fun row => row.fields := by
  unfold shipped labelled
  rw [Telemetry.Loading.settled_map, List.filterMap_map]
  rfl

theorem mem_shipped : record ∈ shipped s ↔
    ∃ id, some record ∈ stored ((labelled s.cloud).settled .outboundScans) id := by
  rw [shipped_eq, List.mem_filterMap]
  constructor
  · rintro ⟨row, member, same⟩
    exact ⟨row.batchId, List.mem_map.mpr ⟨row, List.mem_filter.mpr ⟨member, decide_eq_true rfl⟩, same⟩⟩
  · rintro ⟨id, member⟩
    obtain ⟨row, among, same⟩ := List.mem_map.mp member
    exact ⟨row, List.mem_of_mem_filter among, same⟩

theorem Sane.settled_holds (sane : Sane setup others s) (id : BatchId) :
    stored ((labelled s.cloud).settled .outboundScans) id = [] ∨
      stored ((labelled s.cloud).settled .outboundScans) id
        = rowsOf (contents setup others s.taken) .outboundScans id := by
  have whole := sane.cloud s.taken (List.Subset.refl _)
  rw [Telemetry.Loading.stored_settled whole.sound]
  split
  · exact Or.inr rfl
  · exact whole.sound.once .outboundScans id

theorem Sane.sent_of_stored (sane : Sane setup others s)
    (held : some record ∈ stored ((labelled s.cloud).settled .outboundScans) id) :
    ∃ batch ∈ sentBatches setup s.taken, record ∈ batch ∧ parses setup.runtime record = true ∧
      getBatchId setup.runtime setup.server batch = some id := by
  rcases sane.settled_holds id with none | whole
  · rw [none] at held
    cases held
  · exact sent_of_mem_rowsOf (whole ▸ held)

theorem Sane.nodup_sent (sane : Sane setup others s) : (sentBatches setup s.taken).flatten.Nodup := by
  rw [flatten_sentBatches]
  exact sane.distinct.of_append_right

theorem Sane.one_batch (sane : Sane setup others s) (first : batch ∈ sentBatches setup s.taken)
    (second : batch' ∈ sentBatches setup s.taken) (inside : record ∈ batch) (inside' : record ∈ batch') :
    batch = batch' := by
  by_contra different
  have apart := (List.nodup_flatten.mp sane.nodup_sent).2
  have : Std.Symm (@List.Disjoint (Json N)) := ⟨fun _ _ disjoint _ there here => disjoint here there⟩
  exact apart.forall first second different inside inside'

theorem Sane.nodup_shipped (apart : Apart setup) (sane : Sane setup others s) : (shipped s).Nodup := by
  classical
  refine List.nodup_iff_count_le_one.mpr fun record => ?_
  by_cases among : record ∈ shipped s
  · obtain ⟨id, held⟩ := mem_shipped.mp among
    obtain ⟨batch, sent, inside, -, named⟩ := sane.sent_of_stored held
    -- Every row of the record is of this batch, so counting its rows is counting those of the batch.
    have of_batch : ∀ row ∈ (labelled s.cloud).settled .outboundScans, row.fields = some record →
        row.batchId = id := by
      intro row member same
      have held' : some record ∈ stored ((labelled s.cloud).settled .outboundScans) row.batchId :=
        List.mem_map.mpr ⟨row, List.mem_filter.mpr ⟨member, decide_eq_true rfl⟩, same⟩
      obtain ⟨batch', sent', inside', -, named'⟩ := sane.sent_of_stored held'
      obtain rfl := sane.one_batch sent sent' inside inside'
      exact Option.some.inj (named'.symm.trans named)
    have counted : (shipped s).count record
        = (stored ((labelled s.cloud).settled .outboundScans) id).count (some record) := by
      rw [shipped_eq, List.count_filterMap, stored, List.count_eq_countP, List.countP_map, List.countP_filter]
      refine List.countP_congr fun row member => ?_
      simp only [Function.comp_apply, beq_iff_eq, Bool.and_eq_true, decide_eq_true_iff]
      exact (and_iff_left_of_imp (of_batch row member)).symm
    rw [counted]
    rcases sane.settled_holds id with none | whole
    · rw [none]
      exact Nat.zero_le _
    · rw [whole, (rowsOf_sent apart sent named rfl).2]
      show (List.map some _).count (some record) ≤ 1
      rw [List.count_map_of_injective _ _ (Option.some_injective _)]
      refine List.nodup_iff_count_le_one.mp (List.Nodup.filter _ ?_) record
      exact (List.nodup_flatten.mp sane.nodup_sent).1 batch sent
  · rw [List.count_eq_zero_of_not_mem among]
    exact Nat.zero_le _

theorem Sane.mem_shipped_iff (apart : Apart setup) (sane : Sane setup others s)
    (accepted : batch ∈ s.accepted) (inside : record ∈ wire batch) :
    record ∈ shipped s ↔ parses setup.runtime record = true := by
  rw [mem_shipped]
  constructor
  · rintro ⟨id, held⟩
    obtain ⟨_, -, -, reads, -⟩ := sane.sent_of_stored held
    exact reads
  · intro reads
    obtain ⟨sent, id, named, held⟩ := sane.accepted batch accepted
    have whole := sane.cloud s.taken (List.Subset.refl _)
    have holds : rowsOf (contents setup others s.taken) .outboundScans id
        = recordsIn setup.runtime (wire batch) .outboundScans := (rowsOf_sent apart sent named rfl).2
    have listed : some record ∈ recordsIn setup.runtime (wire batch) .outboundScans :=
      List.mem_map_of_mem (List.mem_filter.mpr ⟨inside, reads⟩)
    refine ⟨id, ?_⟩
    rw [Telemetry.Loading.stored_settled whole.sound]
    split
    · exact holds ▸ listed
    · next absent =>
      rcases held with none | ⟨file, there, same⟩ | whole'
      · rw [none] at listed
        cases listed
      · exact absurd (same ▸ List.mem_map_of_mem there) absent
      · exact whole' ▸ listed

theorem exists_batch_of_mem_recordsOf {bytes : List UInt8} (member : record ∈ recordsOf setup bytes) :
    ∃ batch ∈ batchesOf setup bytes, record ∈ wire batch := by
  obtain ⟨before, there, rfl⟩ := List.mem_map.mp member
  rw [← flatten_batchesOf] at there
  obtain ⟨batch, listed, inside⟩ := List.mem_flatten.mp there
  exact ⟨batch, listed, List.mem_map_of_mem inside⟩

/-- **Resending stores each scan once.** Whatever is lost, refused or stopped, and however often a batch is
sent: every record is stored at most once; a file is deleted only after all its batches were accepted; and of
an accepted batch, and of every file once a run has ended with success, the records that parse are stored. -/
theorem scans_stored_once (digests : Function.Injective setup.runtime.sha256)
    (names : Function.Injective setup.runtime.uuid5) (pending : Keyed String PendingFile PendingFile.name)
    (spool : List UInt8)
    (distinct : (recordsOf setup spool ++ pending.rows.flatMap fun file => recordsOf setup file.bytes).Nodup)
    (reached : Reaches (step setup) (steady setup others) (.initial pending spool) s) :
    (shipped s).Nodup ∧
    (∀ bytes ∈ s.deleted, ∀ batch ∈ batchesOf setup bytes, batch ∈ s.accepted) ∧
    (∀ batch ∈ s.accepted, ∀ record ∈ wire batch, record ∈ shipped s ↔ parses setup.runtime record = true) ∧
    (s.stage.succeeded = true → ∀ bytes ∈ s.taken, ∀ record ∈ recordsOf setup bytes,
      record ∈ shipped s ↔ parses setup.runtime record = true) := by
  have apart : Apart setup := ⟨digests, names⟩
  have sane : Sane setup others s :=
    reached.invariant _ (sane_initial distinct) fun sane allowed taken => sane_step apart sane allowed taken
  have stored : ∀ batch ∈ s.accepted, ∀ record ∈ wire batch,
      record ∈ shipped s ↔ parses setup.runtime record = true :=
    fun batch accepted record inside => sane.mem_shipped_iff apart accepted inside
  refine ⟨sane.nodup_shipped apart, sane.deleted, stored, fun succeeded bytes taken record member => ?_⟩
  have empty : ∀ file, file ∉ s.pending := by
    have knows := sane.stage
    cases stage : s.stage with
    | returned success =>
      rw [stage] at knows succeeded
      have success : success = true := succeeded
      subst success
      exact knows
    | _ =>
      rw [stage] at succeeded
      cases succeeded
  have gone : bytes ∈ s.deleted :=
    (sane.taken bytes taken).resolve_right fun ⟨file, there, _⟩ => empty file there
  obtain ⟨batch, listed, inside⟩ := exists_batch_of_mem_recordsOf member
  exact stored batch (sane.deleted bytes gone batch listed) record inside

/-! ### Two runs -/

/-- Steps the runs allow whatever the records are. -/
def isQuiet (s : State N Moment BatchId) : Action N Moment BatchId → Bool
  | .append _ => false
  | .takeSpool now => s.pending.rows.all fun file => file.name ≠ s!"{now}.jsonl"
  | .goOn => totalBytes (sortedFiles s.pending) ≤ maxBacklogBytes
  | .other .. => false
  | .load (.write ..) => false
  | _ => true

theorem steady_of_isQuiet {action : Action N Moment BatchId} (quiet : isQuiet s action = true) :
    steady setup others s action := by
  cases action with
  | append bytes => cases quiet
  | takeSpool now => exact fun file there => of_decide_eq_true (List.all_eq_true.mp quiet file there)
  | goOn => exact fun _ => of_decide_eq_true quiet
  | other table file => cases quiet
  | load action =>
    cases action with
    | write table file => cases quiet
    | _ => trivial
  | _ => trivial

/-- The value of digits. -/
def sampleValue (digits : List Char) : ℕ :=
  digits.foldl (fun value digit => 10 * value + (digit.toNat - 48)) 0

/-- Numbers by their texts; digests and names that are the texts themselves. -/
def sampleSetup : Setup NumberText ℕ (List Char) where
  runtime := {
    isfinite := fun _ => some true
    float := fun number => number
    int := fun number => sampleValue number.text
    flt := fun number => number
    flt4 := fun number => number
    fromtimestamp := fun number => some (sampleValue number.text)
    lower := fun text => String.ofList (text.toList.map Char.toLower)
    fits := fun _ => true
    orjson := Json.compact Json.plainEscape Json.reads_plainEscape
    sha256 := fun text => text
    uuid5 := fun text => text }
  decode := List.map fun byte => Char.ofNat byte.toNat
  decode_nil := rfl
  server := "mail-1"

/-- A file of one line. -/
def sampleFile (line : String) : PendingFile := ⟨"1.jsonl", line.toList.map fun c => UInt8.ofNat c.toNat⟩

def samplePending (line : String) : Keyed String PendingFile PendingFile.name :=
  ⟨[sampleFile line], List.nodup_singleton _⟩

/-- `main`, up to its post. -/
def sampleStart : List (Action NumberText ℕ (List Char)) := [.start true, .takeSpool 2, .goOn, .goOn, .goOn]

def sampleSettings : Settings NumberText := ⟨"Off", ⟨['0'], rfl⟩⟩

theorem distinct_sample {line : String} (one : (recordsOf sampleSetup (sampleFile line).bytes).length = 1) :
    (recordsOf sampleSetup [] ++
      (samplePending line).rows.flatMap fun file => recordsOf sampleSetup file.bytes).Nodup := by
  obtain ⟨record, same⟩ := List.length_eq_one_iff.mp one
  show (_ ++ ([sampleFile line].flatMap _)).Nodup
  rw [recordsOf_nil, List.nil_append, List.flatMap_cons, List.flatMap_nil, List.append_nil, same]
  exact List.nodup_singleton record

theorem reaches_sample {line : String} {actions : List (Action NumberText ℕ (List Char))}
    {s : State NumberText ℕ (List Char)}
    (quiet : RunMeets (step sampleSetup) (fun s action => isQuiet s action = true)
      (.initial (samplePending line) []) actions)
    (ends : run (step sampleSetup) (.initial (samplePending line) []) actions = some s)
    (others : TelemetryTable → List Char → Telemetry.Content Unit) :
    Reaches (step sampleSetup) (steady sampleSetup others) (.initial (samplePending line) []) s :=
  (reaches_of_run quiet ends).mono fun _ _ => steady_of_isQuiet

/-- A record of a message. -/
def sampleLine : String :=
  "\x7b\"action\":\"no action\",\"score\":3.5,\"time\":1792490340,\"user\":\"jane@acme.test\"\x7d\n"

/-- The answer to the first post is lost; the batch is loaded, and the next run sends it again. -/
def resentRun : List (Action NumberText ℕ (List Char)) :=
  sampleStart ++ [Action.receive 0 sampleSettings 1, .write 0 1, .answer 0, .refuse, .load .start] ++
    List.replicate 13 (Action.load .goOn) ++
    sampleStart ++ [Action.receive 1 sampleSettings 2, .write 1 2, .answer 1, .accept, .goOn, .goOn]

/-- The record is stored, though its batch was sent twice. -/
theorem scans_stored_once_resent : ∃ s : State NumberText ℕ (List Char),
    Reaches (step sampleSetup) (steady sampleSetup fun _ _ => .unreadable)
        (.initial (samplePending sampleLine) []) s ∧
      s.next = 2 ∧ s.deleted = [(sampleFile sampleLine).bytes] ∧ (shipped s).Nodup ∧
        ∃ record ∈ recordsOf sampleSetup (sampleFile sampleLine).bytes, record ∈ shipped s := by
  have seen : ((recordsOf sampleSetup (sampleFile sampleLine).bytes).length = 1 ∧
        (recordsOf sampleSetup (sampleFile sampleLine).bytes).all (parses sampleSetup.runtime) = true) ∧
      RunMeets (step sampleSetup) (fun s action => isQuiet s action = true)
        (.initial (samplePending sampleLine) []) resentRun ∧
      (run (step sampleSetup) (.initial (samplePending sampleLine) []) resentRun).map
        (fun s => (s.stage.succeeded, s.next, s.taken, s.deleted))
          = some (true, 2, [(sampleFile sampleLine).bytes], [(sampleFile sampleLine).bytes]) := by
    decide +kernel
  obtain ⟨⟨one, reads⟩, quiet, seen⟩ := seen
  obtain ⟨s, ends, view⟩ := Option.map_eq_some_iff.mp seen
  simp only [Prod.mk.injEq] at view
  obtain ⟨succeeded, sent, taken, deleted⟩ := view
  have reached := reaches_sample quiet ends fun _ _ => .unreadable
  have once := scans_stored_once (fun _ _ same => same) (fun _ _ same => same) _ _ (distinct_sample one)
    reached
  obtain ⟨record, only⟩ := List.length_eq_one_iff.mp one
  have member : record ∈ recordsOf sampleSetup (sampleFile sampleLine).bytes :=
    only ▸ List.mem_singleton_self record
  have there : (sampleFile sampleLine).bytes ∈ s.taken := taken ▸ List.mem_singleton_self _
  refine ⟨s, reached, sent, deleted, once.1, record, member, ?_⟩
  exact (once.2.2.2 succeeded _ there record member).mpr (List.all_eq_true.mp reads record member)

/-- A record of a message for which there was no action. -/
def skippedLine : String := "\x7b\"score\":3.5,\"time\":1792490340,\"user\":\"jane@acme.test\"\x7d\n"

def skippedRun : List (Action NumberText ℕ (List Char)) :=
  sampleStart ++ [Action.receive 0 sampleSettings 1, .answer 0, .accept, .goOn, .goOn]

/-- **A record that does not parse** is not stored, and the run ends with success. -/
theorem record_skipped : ∃ s : State NumberText ℕ (List Char),
    Reaches (step sampleSetup) (steady sampleSetup fun _ _ => .unreadable)
        (.initial (samplePending skippedLine) []) s ∧
      (recordsOf sampleSetup [] ++
        (samplePending skippedLine).rows.flatMap fun file => recordsOf sampleSetup file.bytes).Nodup ∧
      s.stage.succeeded = true ∧
        ∃ bytes ∈ s.taken, ∃ record ∈ recordsOf sampleSetup bytes, record ∉ shipped s := by
  have seen : (recordsOf sampleSetup (sampleFile skippedLine).bytes).length = 1 ∧
      RunMeets (step sampleSetup) (fun s action => isQuiet s action = true)
        (.initial (samplePending skippedLine) []) skippedRun ∧
      (run (step sampleSetup) (.initial (samplePending skippedLine) []) skippedRun).map
        (fun s => (s.stage.succeeded, s.taken, (shipped s).length))
          = some (true, [(sampleFile skippedLine).bytes], 0) := by decide +kernel
  obtain ⟨one, quiet, seen⟩ := seen
  obtain ⟨s, ends, view⟩ := Option.map_eq_some_iff.mp seen
  simp only [Prod.mk.injEq] at view
  obtain ⟨succeeded, taken, none⟩ := view
  obtain ⟨record, only⟩ := List.length_eq_one_iff.mp one
  have member : record ∈ recordsOf sampleSetup (sampleFile skippedLine).bytes :=
    only ▸ List.mem_singleton_self record
  have there : (sampleFile skippedLine).bytes ∈ s.taken := taken ▸ List.mem_singleton_self _
  refine ⟨s, reaches_sample quiet ends fun _ _ => .unreadable, distinct_sample one, succeeded,
    _, there, record, member, ?_⟩
  rw [List.eq_nil_of_length_eq_zero none]
  exact List.not_mem_nil

end SuiteCloud.Provisioning.Rspamd.Shipping
