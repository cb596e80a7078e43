/-
**A signup's progress.**

`suite_cloud/hosting/progress.py`: the thirteen steps of a Suite Tenant Request, each read from the records
the request, its site and mail domain keep, and `sync`, which goes over them in the order of their table and
saves what changed. Reading a step may raise; the steps saved by then stay.

* `Key.after`, `table` — the steps; `isDone`, `skipReason`, `summary` — what is read of the records.
* `getStatus` — `get_status`; `syncFrom`, `sync` — the pass.
* `getStatus_congr` — **what a step reads of the rows**: the steps it comes after, and the claim's start.
* `syncFrom_settles` — **one pass settles**: the pass that follows writes nothing.
* `Ordered` — the invariant: a step that is done comes after steps that are.
* `progress_settles` — all of it, over every run of changed records and syncs.
-/

import SuiteCloud.Hosting.Setup.Model
import SuiteCloud.Library.Transition

namespace SuiteCloud.Hosting.Progress

open SuiteCloud.Library
open SuiteCloud.Hosting.Setup (Wording Outside Site followUpSkipReason hasSiteDomain)

/-! ## The steps -/

inductive Key
  | created
  | verified
  | tenant
  | claim
  | server
  | site
  | configure
  | siteDomain
  | mailDomain
  | mailRecords
  | mailVerified
  | invite
  | completed
  deriving DecidableEq

/-- `STEPS`, in their order. -/
def table : List Key :=
  [.created, .verified, .tenant, .claim, .server, .site, .configure, .siteDomain, .mailDomain, .mailRecords,
    .mailVerified, .invite, .completed]

namespace Key

/-- `Step.after`. -/
def after : Key → List Key
  | created => []
  | verified => [created]
  | tenant => [verified]
  | claim => [tenant]
  | server => [claim]
  | site => [server]
  | configure => [site]
  | siteDomain => [configure]
  | mailDomain => [configure]
  | mailRecords => [mailDomain]
  | mailVerified => [mailRecords]
  | invite => [mailVerified]
  | completed => [invite]

/-- `Step.follow_up`. -/
def followUp : Key → Option String
  | siteDomain => some "Site domain"
  | mailDomain | mailRecords | mailVerified => some "Mail"
  | invite => some "Owner invite"
  | _ => none

/-- The steps `get_pool_reason` may skip. -/
def mayBePooled (step : Key) : Prop := step = server ∨ step = site

instance : DecidablePred mayBePooled := fun _ => inferInstanceAs (Decidable (_ ∨ _))

/-- The rows a step is read with, besides its own. -/
def reads (step : Key) : List Key := step.after ++ if step.mayBePooled then [claim] else []

end Key

/-! ## The records -/

inductive RequestStatus
  | pending
  | verified
  | processing
  | completed
  | failed
  | expired
  deriving DecidableEq

structure Request where
  email : String
  status : RequestStatus
  tenant : Option String
  label : Option String
  suiteSite : Option String
  error : Option String

/-- A Suite Site, with when it was made and when it became active. -/
structure SiteRecord extends Site where
  creation : ℕ
  activatedAt : Option ℕ

/-- **The records** a request's steps are read from. -/
structure Records where
  request : Request
  /-- The Suite Sites, in the order of their creation. -/
  sites : List SiteRecord
  /-- `is_live` of a Mail Domain, where there is one of the name. -/
  mailDomains : String → Option Bool
  /-- `is_verified` of the DNS Records a Mail Domain manages. -/
  dnsRecords : String → List Bool
  /-- `login_email` of a site; none where it raises. -/
  loginEmail : String → Option String
  outside : Outside

inductive StepStatus
  | pending
  | running
  | completed
  | skipped
  | failed
  deriving DecidableEq

/-- `DONE`. -/
def StepStatus.isDone (status : StepStatus) : Bool := status = .completed || status = .skipped

/-- A Suite Tenant Request Step. -/
structure Row where
  status : StepStatus
  detail : Option String
  startedAt : Option ℕ
  endedAt : Option ℕ
  duration : Option ℤ

/-- `detail or None`. -/
def orNone (detail : Option String) : Option String := detail.filter (· ≠ "")

abbrev Rows := Key → Row

/-- **The labels of the follow-ups**, as a set goes through them. -/
structure Labels (words : Wording) where
  order : List String
  mem : ∀ label, label ∈ order ↔ label ∈ (table.filterMap Key.followUp).map words.translate

section Reading

variable (words : Wording) (labels : Labels words) (records : Records)

/-- A document that must be there. -/
def findSite (name : String) : Option SiteRecord := records.sites.find? fun site => site.name = name

/-- `RequestState.site`: the request's, or its tenant's latest that is not dropped; none where it raises. -/
def siteOf : Option (Option SiteRecord) :=
  match records.request.suiteSite with
  | some name => (findSite records name).map some
  | none =>
      match records.request.tenant with
      | none => some none
      | some tenant =>
          some (records.sites.reverse.find? fun site => site.tenant = some tenant ∧ site.status ≠ .dropped)

/-- `self.site`, of which something is read. -/
def theSite : Option SiteRecord := (siteOf records).bind id

/-- `is_live` of `mail_domain`. -/
def mailDomain : Option (String × Bool) := do
  let site ← theSite records
  let name ← site.mailDomain
  let live ← records.mailDomains name
  return (name, live)

/-- `get_pool_reason`. -/
def poolReason (claim : Row) : Option (Option String) :=
  match claim.startedAt with
  | none => some none
  | some startedAt => do
      let site ← theSite records
      return if site.creation < startedAt then
        some (words.format "Suite Site \x7b0\x7d was ready in the pool." [site.name])
      else none

/-- `get_site_domain_skip_reason`. -/
def siteDomainSkipReason : Option (Option String) := do
  let site ← theSite records
  if site.assignSiteDomain ∧ (site.siteDomain records.outside).isSome then
    followUpSkipReason words records.outside site.toSite
  else return some (words.translate "The site gets no site domain.")

/-- `get_skip_reason` of a step; an empty reason skips nothing. -/
def skipReason (rows : Rows) (step : Key) : Option (Option String) :=
  if step.mayBePooled then (poolReason words records (rows .claim)).map orNone
  else if step = .siteDomain then (siteDomainSkipReason words records).map orNone
  else some none

/-- `is_done` of a step. -/
def isDone : Key → Option Bool
  | .created => some true
  | .verified => some (records.request.status ≠ .pending && records.request.status ≠ .expired)
  | .tenant => some records.request.tenant.isSome
  | .claim => (siteOf records).map Option.isSome
  | .server => (theSite records).map (·.virtualMachine.isSome)
  | .site => (theSite records).map (·.siteCreated)
  | .configure => (theSite records).map (·.activatedAt.isSome)
  | .siteDomain => (theSite records).map fun site =>
      hasSiteDomain words ((site.siteDomain records.outside).getD "") site.toSite
  | .mailDomain => (theSite records).map (·.mailDomain.isSome)
  | .mailRecords => (mailDomain records).map fun domain =>
      (records.dnsRecords domain.1 ≠ []) && (records.dnsRecords domain.1).all id
  | .mailVerified => (mailDomain records).map Prod.snd
  | .invite => (theSite records).map (·.ownerInvite.isSome)
  | .completed => some (records.request.status = .completed)

/-- `get_site_domain_summary`. -/
def siteDomainSummary : Option (Option String) := do
  let site ← theSite records
  let row ← site.getDomain words ((site.siteDomain records.outside).getD "")
  return if row.primarySkipped then row.failureReason else site.siteDomain records.outside

/-- `get_summary` of a step, if it has one. -/
def summary : Key → Option (Option String)
  | .tenant => some (some (words.format "Label \x7b0\x7d" [records.request.label.getD "None"]))
  | .claim => (theSite records).map fun site => some (words.format "Suite Site \x7b0\x7d" [site.name])
  | .server => (theSite records).map fun site =>
      some (words.format "Virtual Machine \x7b0\x7d" [site.virtualMachine.getD "None"])
  | .site => (theSite records).map (·.hostname)
  | .siteDomain => siteDomainSummary words records
  | .mailDomain => (theSite records).map (·.mailDomain)
  | .invite => (theSite records).bind fun site => (records.loginEmail site.name).map some
  | _ => some none

/-- `get_waiting_reason`. -/
def waitingReason (step : Key) : Option (Option String) :=
  if step = .verified then
    some (some (words.format "Waiting for the code mailed to \x7b0\x7d." [records.request.email]))
  else
    (siteOf records).map fun site =>
      (orNone (site.bind (·.error))).bind fun error =>
        -- The site domain runs alongside mail: each shows only its own errors.
        match labels.order.find? fun label => (label ++ ":").toList <+: error.toList with
        | none => some error
        | some label => if step.followUp.map words.translate = some label then some error else none

/-- **`get_status`**; none where it raises. -/
def getStatus (rows : Rows) (step : Key) : Option (StepStatus × Option String) :=
  if (rows step).status.isDone then some ((rows step).status, (rows step).detail)
  else if step.after.any fun key => !(rows key).status.isDone then some (.pending, none)
  else do
    match ← skipReason words records rows step with
    | some reason => return (.skipped, some reason)
    | none =>
        if ← isDone words records step then return (.completed, ← summary words records step)
        else if records.request.status = .failed then return (.failed, records.request.error)
        else if records.request.status = .expired then
          return (.failed, some (words.translate "The signup expired before its email was confirmed."))
        else return (.running, ← waitingReason words labels records step)

/-- **`save_row`**. -/
def Row.save (row : Row) (status : StepStatus) (detail : Option String) (timestamp : ℕ) : Row :=
  let startedAt := if status = .running ∨ status = .completed ∨ status = .failed then
    some (row.startedAt.getD timestamp) else row.startedAt
  if status = .completed ∨ status = .failed then
    ⟨status, detail, startedAt, some timestamp, some ((timestamp : ℤ) - startedAt.getD timestamp)⟩
  else if status = .running then ⟨status, detail, startedAt, none, none⟩
  else ⟨status, detail, startedAt, row.endedAt, row.duration⟩

/-- A pass: the rows it leaves, the steps it saved, and whether it raised. -/
structure Synced where
  rows : Rows
  saved : List Key
  raised : Bool

/-- **The loop of `sync`**, over the steps that are left. -/
def syncFrom (clock : Key → ℕ) : List Key → Rows → Synced
  | [], rows => ⟨rows, [], false⟩
  | step :: rest, rows =>
      match getStatus words labels records rows step with
      | none => ⟨rows, [], true⟩
      | some (status, detail) =>
          if status = (rows step).status ∧ orNone detail = orNone (rows step).detail then
            syncFrom clock rest rows
          else
            let after := syncFrom clock rest
              (Function.update rows step ((rows step).save status detail (clock step)))
            { after with saved := step :: after.saved }

@[simp] theorem syncFrom_nil (clock : Key → ℕ) (rows : Rows) :
    syncFrom words labels records clock [] rows = ⟨rows, [], false⟩ := by
  rw [syncFrom]

/-- `save_processing_time`: from the email's confirmation, or from the creation. -/
def processingTime (rows : Rows) (known : Option ℤ) : Option ℤ :=
  if (rows .completed).status ≠ .completed ∨ known.getD 0 ≠ 0 then known
  else
    let first := if (rows .verified).status = .completed then .verified else .created
    some (((rows .completed).endedAt.getD 0 : ℤ) - (rows first).endedAt.getD 0)

end Reading

/-! ## The system -/

/-- **A request and its steps**; none for a request made before steps were kept. -/
structure State where
  records : Records
  steps : Option Rows
  processingTime : Option ℤ

/-- `add_steps`; no code is sent for a request made in the desk. -/
def addSteps (words : Wording) (verifyByOtp : Bool) : Rows := fun step =>
  if step = .verified ∧ verifyByOtp = false then
    ⟨.skipped, some (words.translate "Made in the desk: no code is sent."), none, none, none⟩
  else ⟨.pending, none, none, none, none⟩

section System

variable (words : Wording) (labels : Labels words)

/-- What **`sync`** saves, with the times of its saves. -/
def pass (clock : Key → ℕ) (records : Records) (rows : Rows) : Synced :=
  syncFrom words labels records clock table rows

/-- **`sync`**. -/
def sync (clock : Key → ℕ) (s : State) : State :=
  match s.steps with
  | none => s
  | some rows =>
      let synced := pass words labels clock s.records rows
      { s with
        steps := some synced.rows
        processingTime := if synced.saved = [] ∨ synced.raised then s.processingTime
          else processingTime synced.rows s.processingTime }

inductive Action
  /-- Whatever writes the request, its sites, their domains and their records. -/
  | change (records : Records)
  | sync (clock : Key → ℕ)

def step (s : State) : Action → Option State
  | .change records => some { s with records := records }
  | .sync clock => some (sync words labels clock s)

/-- A request that was just made, or that was made before steps were kept. -/
def State.IsNew (s : State) : Prop :=
  ∀ rows ∈ s.steps, ∃ verifyByOtp, rows = addSteps words verifyByOtp

end System

/-! ## What a step reads of the rows -/

section Passes

variable {words : Wording} {labels : Labels words} {records : Records} {clock : Key → ℕ}

namespace Key

theorem table_pairwise : table.Pairwise fun earlier later => earlier ≠ later ∧ later ∉ earlier.reads := by
  decide

theorem not_mem_reads (key : Key) : key ∉ key.reads := by cases key <;> decide

end Key

theorem skipReason_congr {rows rows' : Rows} {key : Key} (same : ∀ read ∈ key.reads, rows read = rows' read) :
    skipReason words records rows key = skipReason words records rows' key := by
  delta skipReason
  by_cases pooled : key.mayBePooled
  · have claim : rows .claim = rows' .claim := same .claim (by simp [Key.reads, pooled])
    rw [if_pos pooled, if_pos pooled, claim]
  · rw [if_neg pooled, if_neg pooled]

theorem after_congr {rows rows' : Rows} {key : Key} (same : ∀ read ∈ key.reads, rows read = rows' read) :
    (key.after.any fun before => !(rows before).status.isDone)
      = key.after.any fun before => !(rows' before).status.isDone := by
  have agree : ∀ before ∈ key.after, rows before = rows' before := fun before among =>
    same before (List.mem_append_left _ among)
  rw [Bool.eq_iff_iff, List.any_eq_true, List.any_eq_true]
  constructor
  · rintro ⟨before, among, undone⟩
    exact ⟨before, among, by rwa [← agree before among]⟩
  · rintro ⟨before, among, undone⟩
    exact ⟨before, among, by rwa [agree before among]⟩

theorem getStatus_of_done {rows : Rows} {key : Key} (done : (rows key).status.isDone) :
    getStatus words labels records rows key = some ((rows key).status, (rows key).detail) :=
  if_pos done

/-- **What a step reads**, where it is not done: the rows it comes after, and the claim's start. -/
theorem getStatus_congr {rows rows' : Rows} {key : Key} (undone : (rows key).status.isDone = false)
    (undone' : (rows' key).status.isDone = false) (same : ∀ read ∈ key.reads, rows read = rows' read) :
    getStatus words labels records rows key = getStatus words labels records rows' key := by
  delta getStatus
  simp only [undone, undone', Bool.false_eq_true, if_false, after_congr same, skipReason_congr same]

theorem after_done_of_getStatus {rows : Rows} {key : Key} {status : StepStatus} {detail : Option String}
    (undone : (rows key).status.isDone = false)
    (read : getStatus words labels records rows key = some (status, detail)) (done : status.isDone) :
    ∀ before ∈ key.after, (rows before).status.isDone := by
  delta getStatus at read
  rw [if_neg (by simp [undone])] at read
  split at read
  next =>
    obtain ⟨rfl, -⟩ := Prod.mk.inj (Option.some.inj read)
    exact absurd done (by decide)
  next none =>
    intro before among
    by_contra waits
    exact none (List.any_eq_true.mpr ⟨before, among, by simpa using waits⟩)

/-! ## One pass -/

@[simp] theorem Row.save_status (row : Row) (status : StepStatus) (detail : Option String) (timestamp : ℕ) :
    (row.save status detail timestamp).status = status := by
  delta Row.save
  split_ifs <;> rfl

@[simp] theorem Row.save_detail (row : Row) (status : StepStatus) (detail : Option String) (timestamp : ℕ) :
    (row.save status detail timestamp).detail = detail := by
  delta Row.save
  split_ifs <;> rfl

/-- **A row a pass leaves as it is**: what is read is what it says. -/
def Settled (words : Wording) (labels : Labels words) (records : Records) (rows : Rows) (key : Key) : Prop :=
  ∃ detail, getStatus words labels records rows key = some ((rows key).status, detail)
    ∧ orNone detail = orNone (rows key).detail

theorem Settled.of_done {rows : Rows} {key : Key} (done : (rows key).status.isDone) :
    Settled words labels records rows key :=
  ⟨_, getStatus_of_done done, rfl⟩

theorem Settled.congr {rows rows' : Rows} {key : Key} (settled : Settled words labels records rows key)
    (own : rows' key = rows key) (same : ∀ read ∈ key.reads, rows' read = rows read) :
    Settled words labels records rows' key := by
  by_cases done : (rows' key).status.isDone
  · exact .of_done done
  obtain ⟨detail, read, agrees⟩ := settled
  have undone' : (rows' key).status.isDone = false := by simpa using done
  have undone : (rows key).status.isDone = false := by rwa [← own]
  refine ⟨detail, ?_, by rw [own, agrees]⟩
  rw [getStatus_congr undone' undone same, read, own]

theorem settled_save {rows : Rows} {key : Key} {status : StepStatus} {detail : Option String} {timestamp : ℕ}
    (undone : (rows key).status.isDone = false)
    (read : getStatus words labels records rows key = some (status, detail)) :
    Settled words labels records
      (Function.update rows key ((rows key).save status detail timestamp)) key := by
  set rows' := Function.update rows key ((rows key).save status detail timestamp) with rows'_eq
  have own : rows' key = (rows key).save status detail timestamp := by simp [rows'_eq]
  by_cases done : (rows' key).status.isDone
  · exact .of_done done
  have undone' : (rows' key).status.isDone = false := by simpa using done
  have same : ∀ other ∈ key.reads, rows' other = rows other := by
    intro other reads
    have apart : other ≠ key := fun equal => key.not_mem_reads (equal ▸ reads)
    rw [rows'_eq, Function.update_of_ne apart]
  refine ⟨detail, ?_, by rw [own, Row.save_detail]⟩
  rw [getStatus_congr undone' undone same, read, own, Row.save_status]

theorem undone_of_changed {rows : Rows} {key : Key} {status : StepStatus} {detail : Option String}
    (read : getStatus words labels records rows key = some (status, detail))
    (changed : ¬(status = (rows key).status ∧ orNone detail = orNone (rows key).detail)) :
    (rows key).status.isDone = false := by
  by_contra done
  rw [getStatus_of_done (by simpa using done)] at read
  obtain ⟨rfl, rfl⟩ := Prod.mk.inj (Option.some.inj read)
  exact changed ⟨rfl, rfl⟩

theorem syncFrom_append {past rest : List Key} {rows : Rows}
    (settled : ∀ key ∈ past, Settled words labels records rows key) :
    syncFrom words labels records clock (past ++ rest) rows
      = syncFrom words labels records clock rest rows := by
  induction past with
  | nil => rfl
  | cons key past ih =>
    obtain ⟨detail, read, agrees⟩ := settled key List.mem_cons_self
    rw [List.cons_append, syncFrom, read]
    simp only
    rw [if_pos ⟨trivial, agrees⟩]
    exact ih fun earlier among => settled earlier (List.mem_cons_of_mem _ among)

/-- **Where a pass stopped**: the rows before are settled, and what comes then, if anything, raises. -/
def Stopped (words : Wording) (labels : Labels words) (records : Records) (synced : Synced) : Prop :=
  ∃ past rest, past ++ rest = table ∧ (∀ key ∈ past, Settled words labels records synced.rows key) ∧
    ((rest = [] ∧ synced.raised = false) ∨
      ∃ key later, rest = key :: later ∧ getStatus words labels records synced.rows key = none
        ∧ synced.raised = true)

theorem syncFrom_stopped {past rest : List Key} {rows : Rows} (whole : past ++ rest = table)
    (settled : ∀ key ∈ past, Settled words labels records rows key) :
    Stopped words labels records (syncFrom words labels records clock rest rows) := by
  induction rest generalizing past rows with
  | nil => exact ⟨past, [], whole, settled, .inl ⟨rfl, rfl⟩⟩
  | cons key rest ih =>
    have next : (past ++ [key]) ++ rest = table := by rw [List.append_assoc]; exact whole
    rw [syncFrom]
    cases read : getStatus words labels records rows key with
    | none => exact ⟨past, key :: rest, whole, settled, .inr ⟨key, rest, rfl, read, rfl⟩⟩
    | some found =>
      obtain ⟨status, detail⟩ := found
      simp only
      split_ifs with same
      · refine ih next fun earlier among => ?_
        obtain among | among := List.mem_append.mp among
        · exact settled earlier among
        · obtain rfl := List.mem_singleton.mp among
          exact ⟨detail, by rw [read, same.1], same.2⟩
      · have undone := undone_of_changed read same
        refine ih next fun earlier among => ?_
        obtain among | among := List.mem_append.mp among
        · -- What was settled reads nothing of the row just saved.
          obtain ⟨apart, unread⟩ : earlier ≠ key ∧ key ∉ earlier.reads :=
            (List.pairwise_append.mp (whole ▸ Key.table_pairwise)).2.2 earlier among key List.mem_cons_self
          refine (settled earlier among).congr (Function.update_of_ne apart _ _) fun other reads => ?_
          exact Function.update_of_ne (fun equal : other = key => unread (equal ▸ reads)) _ _
        · obtain rfl := List.mem_singleton.mp among
          exact settled_save undone read

/-- The pass after a pass leaves everything as it is, and stops where that one did. -/
theorem Stopped.again {synced : Synced} (stopped : Stopped words labels records synced) :
    syncFrom words labels records clock table synced.rows = ⟨synced.rows, [], synced.raised⟩ := by
  obtain ⟨past, rest, whole, settled, ⟨rfl, through⟩ | ⟨key, later, rfl, raises, raised⟩⟩ := stopped
  · rw [← whole, syncFrom_append settled, syncFrom_nil, through]
  · rw [← whole, syncFrom_append settled, syncFrom, raises, raised]

/-! ## What is done -/

theorem syncFrom_of_done {steps : List Key} {rows : Rows} {key : Key} (done : (rows key).status.isDone) :
    (syncFrom words labels records clock steps rows).rows key = rows key := by
  induction steps generalizing rows with
  | nil => rfl
  | cons step steps ih =>
    rw [syncFrom]
    cases read : getStatus words labels records rows step with
    | none => rfl
    | some found =>
      obtain ⟨status, detail⟩ := found
      simp only
      split_ifs with same
      · exact ih done
      · have apart : key ≠ step := by
          rintro rfl
          exact absurd done (by simp [undone_of_changed read same])
        have kept : Function.update rows step ((rows step).save status detail (clock step)) key = rows key :=
          Function.update_of_ne apart _ _
        simp only
        rw [ih (by rwa [kept]), kept]

/-- **The invariant**: a step that is done comes after steps that are. -/
def Ordered (rows : Rows) : Prop :=
  ∀ key, (rows key).status.isDone → ∀ before ∈ key.after, (rows before).status.isDone

/-- The invariant but for a step: in the desk, an email is not verified before the request is created. -/
def OrderedBut (except : Key) (rows : Rows) : Prop :=
  ∀ key, key ≠ except → (rows key).status.isDone → ∀ before ∈ key.after, (rows before).status.isDone

/-- One save keeps the invariant. -/
theorem OrderedBut.save {except key : Key} {rows : Rows} {status : StepStatus} {detail : Option String}
    {timestamp : ℕ} (ordered : OrderedBut except rows) (undone : (rows key).status.isDone = false)
    (read : getStatus words labels records rows key = some (status, detail)) :
    OrderedBut except (Function.update rows key ((rows key).save status detail timestamp)) := by
  intro step apart done before among
  -- What is done stays so: the row saved was not.
  have stays : ∀ other, (rows other).status.isDone →
      (Function.update rows key ((rows key).save status detail timestamp) other).status.isDone := by
    intro other otherDone
    have otherApart : other ≠ key := by
      rintro rfl
      exact absurd otherDone (by simp [undone])
    rwa [Function.update_of_ne otherApart]
  by_cases own : step = key
  · subst own
    rw [Function.update_self, Row.save_status] at done
    exact stays before (after_done_of_getStatus undone read done before among)
  · rw [Function.update_of_ne own] at done
    exact stays before (ordered step apart done before among)

theorem OrderedBut.syncFrom {except : Key} {steps : List Key} {rows : Rows}
    (ordered : OrderedBut except rows) :
    OrderedBut except (syncFrom words labels records clock steps rows).rows := by
  induction steps generalizing rows with
  | nil => exact ordered
  | cons step steps ih =>
    rw [Progress.syncFrom]
    cases read : getStatus words labels records rows step with
    | none => exact ordered
    | some found =>
      obtain ⟨status, detail⟩ := found
      simp only
      split_ifs with same
      · exact ih ordered
      · exact ih (ordered.save (undone_of_changed read same) read)

theorem created_done (rows : Rows) :
    ((pass words labels clock records rows).rows .created).status.isDone := by
  have tableIs : table = .created :: table.tail := rfl
  by_cases done : (rows .created).status.isDone
  · rw [pass, syncFrom_of_done done]
    exact done
  · have read : getStatus words labels records rows .created = some (.completed, none) := by
      simp [getStatus, done, Key.after, skipReason, Key.mayBePooled, isDone, summary]
    have changed : ¬(StepStatus.completed = (rows .created).status
        ∧ orNone none = orNone (rows .created).detail) := by
      rintro ⟨completed, -⟩
      exact done (by rw [← completed]; rfl)
    rw [pass, tableIs, syncFrom, read]
    simp only
    rw [if_neg changed]
    simp only
    have saved : ((Function.update rows .created
        ((rows .created).save .completed none (clock .created))) .created).status.isDone := by
      rw [Function.update_self, Row.save_status]
      rfl
    rw [syncFrom_of_done saved]
    exact saved

theorem ordered_pass {rows : Rows} (ordered : OrderedBut .verified rows) :
    Ordered (pass words labels clock records rows).rows := by
  intro key done before among
  by_cases verified : key = .verified
  · subst verified
    obtain rfl := List.mem_singleton.mp among
    exact created_done rows
  · exact ordered.syncFrom key verified done before among

theorem orderedBut_addSteps (verifyByOtp : Bool) : OrderedBut .verified (addSteps words verifyByOtp) := by
  intro key apart done
  rw [addSteps, if_neg (fun desk => apart desk.1)] at done
  exact absurd done (by decide)

end Passes

/-! ## The runs -/

section Runs

variable {words : Wording} {labels : Labels words}

theorem sync_of_settled {clock : Key → ℕ} {s : State}
    (settled : ∀ rows ∈ s.steps, (pass words labels clock s.records rows).rows = rows
      ∧ (pass words labels clock s.records rows).saved = []) :
    sync words labels clock s = s := by
  obtain ⟨records, _ | rows, time⟩ := s
  · rfl
  · obtain ⟨same, nothing⟩ := settled rows rfl
    simp only at same nothing
    simp only [sync, same, nothing, true_or, if_true]

theorem orderedBut_step {s s' : State} {action : Action} (taken : step words labels s action = some s')
    (ordered : ∀ rows ∈ s.steps, OrderedBut .verified rows) :
    ∀ rows ∈ s'.steps, OrderedBut .verified rows := by
  cases action with
  | change records =>
    obtain rfl := Option.some.inj taken
    exact ordered
  | sync clock =>
    obtain rfl := Option.some.inj taken
    obtain ⟨records, _ | rows, time⟩ := s
    · exact ordered
    · rintro after ⟨⟩
      exact (ordered rows rfl).syncFrom

theorem done_step {s s' : State} {action : Action} (taken : step words labels s action = some s')
    {rows : Rows} (steps : s.steps = some rows) :
    ∃ rows', s'.steps = some rows' ∧ ∀ key, (rows key).status.isDone → rows' key = rows key := by
  obtain ⟨records, _, time⟩ := s
  obtain rfl : _ = some rows := steps
  cases action with
  | change records =>
    obtain rfl := Option.some.inj taken
    exact ⟨rows, rfl, fun _ _ => rfl⟩
  | sync clock =>
    obtain rfl := Option.some.inj taken
    exact ⟨_, rfl, fun _ done => syncFrom_of_done done⟩

theorem done_run {s s' : State} (reached : Reaches (step words labels) anyStep s s') {rows : Rows}
    (steps : s.steps = some rows) :
    ∃ rows', s'.steps = some rows' ∧ ∀ key, (rows key).status.isDone → rows' key = rows key := by
  induction reached with
  | start => exact ⟨rows, steps, fun _ _ => rfl⟩
  | next _ _ taken ih =>
    obtain ⟨middle, middleSteps, kept⟩ := ih
    obtain ⟨rows', steps', kept'⟩ := done_step taken middleSteps
    refine ⟨rows', steps', fun key done => ?_⟩
    have same := kept key done
    rw [kept' key (by rwa [same]), same]

/-- **A signup's progress**, over every run of changed records and syncs. After each sync a step that is done
comes after steps that are; what is done stays as it is; and a second sync writes nothing. -/
theorem progress_settles (words : Wording) (labels : Labels words) (s₀ : State) (new : s₀.IsNew words)
    (s : State) (reached : Reaches (step words labels) anyStep s₀ s) :
    (∀ clock, ∀ rows ∈ (sync words labels clock s).steps, Ordered rows)
    ∧ (∀ s', Reaches (step words labels) anyStep s s' → ∀ rows ∈ s.steps, ∃ rows' ∈ s'.steps,
        ∀ key, (rows key).status.isDone → rows' key = rows key)
    ∧ ∀ clock clock', let synced := sync words labels clock s
        sync words labels clock' synced = synced
          ∧ ∀ rows ∈ synced.steps, (pass words labels clock' synced.records rows).saved = [] := by
  have ordered : ∀ rows ∈ s.steps, OrderedBut .verified rows := by
    refine reached.invariant (fun s => ∀ rows ∈ s.steps, OrderedBut .verified rows) ?_
      fun kept _ taken => orderedBut_step taken kept
    intro rows steps
    obtain ⟨verifyByOtp, rfl⟩ := new rows steps
    exact orderedBut_addSteps verifyByOtp
  refine ⟨fun clock => ?_, fun s' later rows steps => done_run later steps, fun clock clock' => ?_⟩
  · obtain ⟨records, _ | rows, time⟩ := s
    · exact fun _ none => absurd none (by simp [sync])
    · rintro after ⟨⟩
      exact ordered_pass (ordered rows rfl)
  · have settled : ∀ rows ∈ (sync words labels clock s).steps,
        (pass words labels clock' (sync words labels clock s).records rows).rows = rows
          ∧ (pass words labels clock' (sync words labels clock s).records rows).saved = [] := by
      obtain ⟨records, _ | rows, time⟩ := s
      · exact fun _ none => absurd none (by simp [sync])
      · rintro after ⟨⟩
        have none : ∀ key ∈ ([] : List Key), Settled words labels records rows key := by simp
        have stopped : Stopped words labels records (pass words labels clock records rows) :=
          syncFrom_stopped rfl none
        have again : pass words labels clock' records (pass words labels clock records rows).rows = _ :=
          stopped.again
        have recordsAre : (sync words labels clock ⟨records, some rows, time⟩).records = records := rfl
        rw [recordsAre, again]
        exact ⟨rfl, rfl⟩
    exact ⟨sync_of_settled settled, fun rows steps => (settled rows steps).2⟩

end Runs

/-! ## A request made in the desk -/

def plainWords : Wording := ⟨id, fun text _ => text, id⟩

def plainLabels : Labels plainWords where
  order := ["Site domain", "Mail", "Owner invite"]
  mem label := by
    have labels : (table.filterMap Key.followUp).map plainWords.translate
        = ["Site domain", "Mail", "Mail", "Mail", "Owner invite"] := rfl
    rw [labels]
    simp

def deskRecords : Records where
  request := ⟨"owner@example.com", .verified, none, none, none, none⟩
  sites := []
  mailDomains _ := none
  dnsRecords _ := []
  loginEmail _ := none
  outside := ⟨fun _ => none, fun _ => none, fun _ => none⟩

def deskRequest : State := ⟨deskRecords, some (addSteps plainWords false), none⟩

theorem progress_settles_desk :
    (((sync plainWords plainLabels (fun _ => 5) deskRequest).steps.map fun rows => (rows .created).status)
        = some .completed)
      ∧ ∀ rows ∈ (sync plainWords plainLabels (fun _ => 5) deskRequest).steps, Ordered rows :=
  ⟨by decide, (progress_settles plainWords plainLabels deskRequest
    (fun _ made => ⟨false, (Option.some.inj made).symm⟩) deskRequest .start).1 _⟩

end SuiteCloud.Hosting.Progress
