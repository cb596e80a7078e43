/-
**A Suite Site and what writes it.**

`suite_cloud/hosting/sites.py`: the provision job, a statement at a time, with its steps `create` and
`configure`; the drop job; `retry`; and `push_secret_to_site` of a tenant's `rotate_secret`. Each has
the site's document in memory as it loaded it, and writes the row that is committed by then.

* `Job.effect` — **the program of the provision job**: the effect of the statement it stands at, by
  what is answered to it. `Effect.apply` is what the effect does to the row and the job.
* `DropAt.step`, `Retry.write`, `Rotation.push` — the other writers.
* `Job.step_eq_some` — a step of the job is one effect of its program.
-/

import SuiteCloud.Hosting.Claims
import SuiteCloud.Library.RowLock

namespace SuiteCloud.Hosting.Sites

open SuiteCloud.Library
open SuiteCloud.Hosting.Claims (Status)

/-! ## The record -/

/-- The fields of a Suite Site that its jobs read and write. -/
structure SuiteSite where
  name : String
  tenant : Option String
  status : Status
  virtualMachine : Option String
  hostname : Option String
  attempts : ℕ
  pilotTask : Option String
  siteCreated : Bool
  suiteConfigured : Bool
  deriving DecidableEq

namespace SuiteSite

/-- `MAX_HOSTNAME_ATTEMPTS`. -/
def maxHostnameAttempts : ℕ := 5

/-- `create` writes where the site was placed. -/
def placed (server host : String) (row : SuiteSite) : SuiteSite :=
  { row with virtualMachine := some server, hostname := some host }

/-- `create` writes Pilot's task. -/
def creating (task : String) (row : SuiteSite) : SuiteSite :=
  { row with pilotTask := some task, status := .creating }

/-- `reroll_hostname`. -/
def rerolled (doc : SuiteSite) (host : String) (row : SuiteSite) : SuiteSite :=
  { row with
    hostname := some host, attempts := doc.attempts + 1, pilotTask := none, status := .pending }

/-- `mark_created`. -/
def created (doc : SuiteSite) (row : SuiteSite) : SuiteSite :=
  { row with
    siteCreated := true, pilotTask := none, status := if doc.tenant.isSome then .assigned else .ready }

def configuring (row : SuiteSite) : SuiteSite := { row with status := .configuring }

def configured (row : SuiteSite) : SuiteSite := { row with suiteConfigured := true }

/-- `activate`. -/
def activated (row : SuiteSite) : SuiteSite := { row with status := .active }

/-- `fail`. -/
def failed (row : SuiteSite) : SuiteSite := { row with status := .failed }

/-- `resume_status`. -/
def resumeStatus (doc : SuiteSite) : Status :=
  if !doc.siteCreated then .pending
  else if doc.tenant.isNone then .ready
  else if doc.suiteConfigured then .active
  else .assigned

/-- `retry` writes where the site goes on. -/
def resumed (doc : SuiteSite) (row : SuiteSite) : SuiteSite :=
  { row with status := doc.resumeStatus, pilotTask := none }

def dropping (row : SuiteSite) : SuiteSite := { row with status := .dropping }

def dropped (row : SuiteSite) : SuiteSite := { row with status := .dropped }

/-- `push_secret_to_site` has `configure` run again. -/
def unconfigured (row : SuiteSite) : SuiteSite := { row with suiteConfigured := false }

def assigned (row : SuiteSite) : SuiteSite := { row with status := .assigned }

end SuiteSite

/-! ## The provision job -/

/-- The statement a provision job stands at. -/
inductive At
  /-- The head of the loop of `provision`. -/
  | load
  /-- `create`: `if not site.virtual_machine`. -/
  | create
  /-- `create`: `if not site.pilot_task`, and `list_sites`. -/
  | look
  /-- `create`: `create_site`. -/
  | request
  /-- `create`: the task is to be written. -/
  | answered (task : String)
  /-- `wait_for_task`: its checkpoint. -/
  | checkpoint
  /-- `wait_for_task`: the task is asked for. -/
  | wait
  | configure
  /-- `configure_suite`: the tenant is read. -/
  | connect
  /-- `push_tenant_credentials`. -/
  | send
  /-- The rest of `configure_suite`, and `suite_configured`. -/
  | sent
  /-- The checkpoint of `configure`. -/
  | keep
  | activate
  | followUp
  /-- The end of `run_step`, with what the step returned. -/
  | finish (advanced : Bool)
  deriving DecidableEq

/-- What a statement is answered by Pilot, by the site, or by chance. -/
inductive Answer
  | goesOn
  /-- `place` has picked a server and a hostname. -/
  | placed (server host : String)
  | noServer
  /-- Whether `list_sites` has the hostname. -/
  | listed (there : Bool)
  /-- `create_site` returns a task. -/
  | task (id : String)
  /-- A `task_conflict`. -/
  | conflict
  | running
  | succeeded
  /-- The task failed: whether the name was taken, and the hostname that would be next. -/
  | failed (taken : Bool) (host : String)
  /-- One of `WAITING_ERRORS`. -/
  | waits
  /-- Any other exception. -/
  | raises
  /-- The worker dies. -/
  | dies
  deriving DecidableEq

/-- A provision job: where it stands, and the document in memory. -/
structure Job where
  stands : At
  doc : SuiteSite
  deriving DecidableEq

/-- A job that starts. -/
def Job.starts (row : SuiteSite) : Job := ⟨.load, row⟩

/-- What a statement does. -/
inductive Effect
  /-- `get_doc` with `for_update`: the loop goes on with the step of the status. -/
  | loads
  /-- Nothing is written. -/
  | goTo (next : At)
  /-- `db_set`. -/
  | dbSet (change : SuiteSite → SuiteSite) (next : At)
  | commit (next : Option At)
  /-- The error is noted, and the step returns. -/
  | note
  /-- `undo_step`, and `fail`. -/
  | fail
  | die

/-- The step of a status (`STEPS`). -/
def stepFor : Status → Option At
  | .pending | .creating => some .create
  | .assigned | .configuring => some .configure
  | .active => some .followUp
  | .ready | .failed | .dropping | .dropped => none

theorem stepFor_eq_some {status : Status} {step : At} (found : stepFor status = some step) :
    step = .create ∨ (step = .configure ∧ (status = .assigned ∨ status = .configuring)) ∨
      step = .followUp := by
  unfold stepFor at found
  split at found <;> cases found
  · exact Or.inl rfl
  · exact Or.inl rfl
  · exact Or.inr (Or.inl ⟨rfl, Or.inl rfl⟩)
  · exact Or.inr (Or.inl ⟨rfl, Or.inr rfl⟩)
  · exact Or.inr (Or.inr rfl)

/-- A statement that asks Pilot, Central or the site for something, and may be told to wait. -/
def At.mayWait : At → Bool
  | .look | .request | .answered _ | .wait | .connect | .send | .sent => true
  | _ => false

/-- A statement inside a step. -/
def At.isInStep : At → Bool
  | .load | .finish _ => false
  | _ => true

/-- **The program of the provision job**: the effect of the statement it stands at. -/
def Job.effect (job : Job) (answer : Answer) : Option Effect :=
  match job.stands, answer with
  | .load, .goesOn => some .loads
  | .create, .goesOn => if job.doc.virtualMachine.isSome then some (.goTo .look) else none
  | .create, .placed server host =>
      if job.doc.virtualMachine.isSome then none
      else some (.dbSet (SuiteSite.placed server host) .look)
  | .create, .noServer => if job.doc.virtualMachine.isSome then none else some .note
  | .look, .goesOn => if job.doc.pilotTask.isSome then some (.goTo .checkpoint) else none
  | .look, .listed there =>
      if job.doc.pilotTask.isSome then none
      else if there then some (.dbSet (SuiteSite.created job.doc) (.finish true))
      else some (.goTo .request)
  | .request, .task id => some (.goTo (.answered id))
  | .request, .conflict => some (.goTo (.finish false))
  | .answered id, .goesOn => some (.dbSet (SuiteSite.creating id) .checkpoint)
  | .checkpoint, .goesOn => some (.commit (some .wait))
  | .wait, .running => some (.goTo (.finish false))
  | .wait, .succeeded => some (.dbSet (SuiteSite.created job.doc) (.finish true))
  | .wait, .failed taken host =>
      if taken ∧ job.doc.attempts + 1 < SuiteSite.maxHostnameAttempts then
        some (.dbSet (SuiteSite.rerolled job.doc host) (.finish true))
      else some .fail
  | .configure, .goesOn =>
      some (.dbSet SuiteSite.configuring (if job.doc.suiteConfigured then .activate else .connect))
  | .connect, .goesOn => some (.goTo .send)
  | .send, .goesOn => some (.goTo .sent)
  | .sent, .goesOn => some (.dbSet SuiteSite.configured .keep)
  | .keep, .goesOn => some (.commit (some .activate))
  | .activate, .goesOn => some (.dbSet SuiteSite.activated (.finish true))
  -- Each follow-up commits what it did, none of it in these fields.
  | .followUp, .goesOn => some (.commit (some (.finish false)))
  | .finish advanced, .goesOn => some (.commit (if advanced then some .load else none))
  | here, .waits => if here.mayWait then some .note else none
  | here, .raises => if here.isInStep then some .fail else none
  | _, .dies => some .die
  | _, _ => none

variable {O : Type*} [DecidableEq O]

/-- **What an effect does** to the job and to the row. -/
def Effect.apply (effect : Effect) (me : O) (row : RowLock O SuiteSite) (job : Job) :
    Option (Option Job × RowLock O SuiteSite) :=
  match effect with
  | .loads => (row.lock me).map fun locked =>
      match stepFor locked.latest.status with
      | some step => (some ⟨step, locked.latest⟩, locked)
      | none => (none, locked.release me)
  | .goTo next => some (some ⟨next, job.doc⟩, row)
  | .dbSet change next => (row.write me change).map fun written =>
      (some ⟨next, change job.doc⟩, written)
  | .commit next => some (next.map fun next => ⟨next, job.doc⟩, row.commit me)
  | .note => (row.lock me).map fun locked => (some ⟨.finish false, job.doc⟩, locked)
  | .fail => ((row.undo me).write me SuiteSite.failed).map fun written =>
      (some ⟨.finish false, job.doc⟩, written)
  | .die => some (none, row.release me)

/-- **One statement of the provision job.** -/
def Job.step (job : Job) (me : O) (row : RowLock O SuiteSite) (answer : Answer) :
    Option (Option Job × RowLock O SuiteSite) :=
  (job.effect answer).bind fun effect => effect.apply me row job

/-- **What each statement can do**, with its guards. -/
inductive Job.Does (job : Job) : Answer → Effect → Prop
  | loads : job.stands = .load → Does job .goesOn .loads
  | standing (server : String) : job.stands = .create → job.doc.virtualMachine = some server →
      Does job .goesOn (.goTo .look)
  | place (server host : String) : job.stands = .create → job.doc.virtualMachine = none →
      Does job (.placed server host) (.dbSet (SuiteSite.placed server host) .look)
  | noServer : job.stands = .create → job.doc.virtualMachine = none → Does job .noServer .note
  | requested (task : String) : job.stands = .look → job.doc.pilotTask = some task →
      Does job .goesOn (.goTo .checkpoint)
  | found : job.stands = .look → job.doc.pilotTask = none →
      Does job (.listed true) (.dbSet (SuiteSite.created job.doc) (.finish true))
  | unfound : job.stands = .look → job.doc.pilotTask = none →
      Does job (.listed false) (.goTo .request)
  | answered (task : String) : job.stands = .request → Does job (.task task) (.goTo (.answered task))
  | conflict : job.stands = .request → Does job .conflict (.goTo (.finish false))
  | creating (task : String) : job.stands = .answered task →
      Does job .goesOn (.dbSet (SuiteSite.creating task) .checkpoint)
  | checkpoint : job.stands = .checkpoint → Does job .goesOn (.commit (some .wait))
  | running : job.stands = .wait → Does job .running (.goTo (.finish false))
  | created : job.stands = .wait →
      Does job .succeeded (.dbSet (SuiteSite.created job.doc) (.finish true))
  | reroll (host : String) : job.stands = .wait →
      job.doc.attempts + 1 < SuiteSite.maxHostnameAttempts →
      Does job (.failed true host) (.dbSet (SuiteSite.rerolled job.doc host) (.finish true))
  | gaveUp (taken : Bool) (host : String) : job.stands = .wait → Does job (.failed taken host) .fail
  | configuring : job.stands = .configure → Does job .goesOn
      (.dbSet SuiteSite.configuring (if job.doc.suiteConfigured then .activate else .connect))
  | connects : job.stands = .connect → Does job .goesOn (.goTo .send)
  | sends : job.stands = .send → Does job .goesOn (.goTo .sent)
  | configured : job.stands = .sent → Does job .goesOn (.dbSet SuiteSite.configured .keep)
  | keeps : job.stands = .keep → Does job .goesOn (.commit (some .activate))
  | activates : job.stands = .activate →
      Does job .goesOn (.dbSet SuiteSite.activated (.finish true))
  | followsUp : job.stands = .followUp → Does job .goesOn (.commit (some (.finish false)))
  | again : job.stands = .finish true → Does job .goesOn (.commit (some .load))
  | ends : job.stands = .finish false → Does job .goesOn (.commit none)
  | waits : job.stands.mayWait → Does job .waits .note
  | raises : job.stands.isInStep → Does job .raises .fail
  | dies : Does job .dies .die

variable {me : O} {row after : RowLock O SuiteSite} {job : Job} {left : Option Job} {answer : Answer}
  {effect : Effect}

theorem Job.does_of_effect (named : job.effect answer = some effect) : job.Does answer effect := by
  obtain ⟨stands, doc⟩ := job
  have unplaced {value : Option String} (absent : ¬value.isSome) : value = none :=
    Option.not_isSome_iff_eq_none.mp absent
  unfold Job.effect at named
  split at named
  case h_1 => exact Option.some.inj named ▸ .loads (by assumption)
  case h_2 here =>
    split at named
    · next present =>
      obtain ⟨server, there⟩ := Option.isSome_iff_exists.mp present
      exact Option.some.inj named ▸ .standing server here there
    · cases named
  case h_3 here =>
    split at named
    · cases named
    · next absent => exact Option.some.inj named ▸ .place _ _ here (unplaced absent)
  case h_4 here =>
    split at named
    · cases named
    · next absent => exact Option.some.inj named ▸ .noServer here (unplaced absent)
  case h_5 here =>
    split at named
    · next present =>
      obtain ⟨task, there⟩ := Option.isSome_iff_exists.mp present
      exact Option.some.inj named ▸ .requested task here there
    · cases named
  case h_6 there here =>
    split at named
    · cases named
    · next absent =>
      cases there with
      | true => exact Option.some.inj named ▸ .found here (unplaced absent)
      | false => exact Option.some.inj named ▸ .unfound here (unplaced absent)
  case h_7 here => exact Option.some.inj named ▸ .answered _ here
  case h_8 here => exact Option.some.inj named ▸ .conflict here
  case h_9 here => exact Option.some.inj named ▸ .creating _ here
  case h_10 here => exact Option.some.inj named ▸ .checkpoint here
  case h_11 here => exact Option.some.inj named ▸ .running here
  case h_12 here => exact Option.some.inj named ▸ .created here
  case h_13 taken host here =>
    split at named
    · next again =>
      obtain ⟨rfl, fewer⟩ := again
      exact Option.some.inj named ▸ .reroll _ here fewer
    · exact Option.some.inj named ▸ .gaveUp _ _ here
  case h_14 here => exact Option.some.inj named ▸ .configuring here
  case h_15 here => exact Option.some.inj named ▸ .connects here
  case h_16 here => exact Option.some.inj named ▸ .sends here
  case h_17 here => exact Option.some.inj named ▸ .configured here
  case h_18 here => exact Option.some.inj named ▸ .keeps here
  case h_19 here => exact Option.some.inj named ▸ .activates here
  case h_20 here => exact Option.some.inj named ▸ .followsUp here
  case h_21 advanced here =>
    cases advanced with
    | true => exact Option.some.inj named ▸ .again here
    | false => exact Option.some.inj named ▸ .ends here
  case h_22 =>
    split at named
    · next waits => exact Option.some.inj named ▸ .waits waits
    · cases named
  case h_23 =>
    split at named
    · next inStep => exact Option.some.inj named ▸ .raises inStep
    · cases named
  case h_24 => exact Option.some.inj named ▸ .dies
  case h_25 => cases named

theorem Job.Does.loads_of_load (does : job.Does answer effect) (atHead : job.stands = .load) :
    effect = .loads ∨ effect = .die := by
  cases does with
  | loads => exact Or.inl rfl
  | dies => exact Or.inr rfl
  | waits may =>
    rw [atHead] at may
    cases may
  | raises inStep =>
    rw [atHead] at inStep
    cases inStep
  | _ => simp_all only [reduceCtorEq]

theorem Job.step_eq_some : job.step me row answer = some (left, after) ↔
    ∃ effect, job.effect answer = some effect ∧ effect.apply me row job = some (left, after) :=
  Option.bind_eq_some_iff

theorem Effect.apply_loads (taken : Effect.loads.apply me row job = some (left, after)) :
    ∃ locked, row.lock me = some locked ∧
      ((∃ step, stepFor locked.latest.status = some step ∧ left = some ⟨step, locked.latest⟩ ∧
          after = locked) ∨
        (stepFor locked.latest.status = none ∧ left = none ∧ after = locked.release me)) := by
  obtain ⟨locked, got, made⟩ := Option.map_eq_some_iff.mp taken
  refine ⟨locked, got, ?_⟩
  cases found : stepFor locked.latest.status with
  | some step =>
    rw [found] at made
    obtain ⟨rfl, rfl⟩ := Prod.mk.inj made
    exact Or.inl ⟨step, rfl, rfl, rfl⟩
  | none =>
    rw [found] at made
    obtain ⟨rfl, rfl⟩ := Prod.mk.inj made
    exact Or.inr ⟨rfl, rfl, rfl⟩

theorem Effect.apply_dbSet {change : SuiteSite → SuiteSite} {next : At}
    (taken : (Effect.dbSet change next).apply me row job = some (left, after)) :
    left = some ⟨next, change job.doc⟩ ∧ row.write me change = some after := by
  obtain ⟨written, got, made⟩ := Option.map_eq_some_iff.mp taken
  obtain ⟨rfl, rfl⟩ := Prod.mk.inj made
  exact ⟨rfl, got⟩

theorem Effect.apply_note (taken : Effect.note.apply me row job = some (left, after)) :
    left = some ⟨.finish false, job.doc⟩ ∧ row.lock me = some after := by
  obtain ⟨written, got, made⟩ := Option.map_eq_some_iff.mp taken
  obtain ⟨rfl, rfl⟩ := Prod.mk.inj made
  exact ⟨rfl, got⟩

theorem Effect.apply_fail (taken : Effect.fail.apply me row job = some (left, after)) :
    left = some ⟨.finish false, job.doc⟩ ∧ (row.undo me).write me SuiteSite.failed = some after := by
  obtain ⟨written, got, made⟩ := Option.map_eq_some_iff.mp taken
  obtain ⟨rfl, rfl⟩ := Prod.mk.inj made
  exact ⟨rfl, got⟩

theorem Job.step_committed (taken : job.step me row answer = some (left, after)) :
    after.committed = row.committed ∨ after = row.commit me := by
  obtain ⟨effect, -, applied⟩ := Job.step_eq_some.mp taken
  cases effect with
  | loads =>
    obtain ⟨locked, got, ⟨step, -, -, rfl⟩ | ⟨-, -, rfl⟩⟩ := Effect.apply_loads applied
    · exact Or.inl (RowLock.committed_write got)
    · rw [RowLock.committed_release]
      exact Or.inl (RowLock.committed_write got)
  | goTo next =>
    obtain ⟨rfl, rfl⟩ := Prod.mk.inj (Option.some.inj applied)
    exact Or.inl rfl
  | dbSet change next => exact Or.inl (RowLock.committed_write (Effect.apply_dbSet applied).2)
  | commit next =>
    obtain ⟨rfl, rfl⟩ := Prod.mk.inj (Option.some.inj applied)
    exact Or.inr rfl
  | note => exact Or.inl (RowLock.committed_write (Effect.apply_note applied).2)
  | fail =>
    rw [RowLock.committed_write (Effect.apply_fail applied).2, RowLock.committed_undo]
    exact Or.inl rfl
  | die =>
    obtain ⟨rfl, rfl⟩ := Prod.mk.inj (Option.some.inj applied)
    exact Or.inl RowLock.committed_release

theorem Job.step_held_other {other : O} {version : SuiteSite} (foreign : other ≠ me)
    (taken : job.step me row answer = some (left, after)) :
    after.held = some (other, version) ↔ row.held = some (other, version) := by
  obtain ⟨effect, -, applied⟩ := Job.step_eq_some.mp taken
  cases effect with
  | loads =>
    obtain ⟨locked, got, ⟨step, -, -, rfl⟩ | ⟨-, -, rfl⟩⟩ := Effect.apply_loads applied
    · exact RowLock.write_held_other foreign got
    · rw [RowLock.release_held_other foreign]
      exact RowLock.write_held_other foreign got
  | goTo next =>
    obtain ⟨rfl, rfl⟩ := Prod.mk.inj (Option.some.inj applied)
    exact Iff.rfl
  | dbSet change next => exact RowLock.write_held_other foreign (Effect.apply_dbSet applied).2
  | commit next =>
    obtain ⟨rfl, rfl⟩ := Prod.mk.inj (Option.some.inj applied)
    exact RowLock.commit_held_other foreign
  | note => exact RowLock.write_held_other foreign (Effect.apply_note applied).2
  | fail =>
    rw [RowLock.write_held_other foreign (Effect.apply_fail applied).2]
    exact RowLock.undo_held_other foreign
  | die =>
    obtain ⟨rfl, rfl⟩ := Prod.mk.inj (Option.some.inj applied)
    exact RowLock.release_held_other foreign

/-! ## The drop job -/

/-- The statement a drop job stands at. -/
inductive DropAt
  | load
  /-- `is_provisioning`. -/
  | check
  | checkpoint
  /-- `drop_from_server`, the mail domain and the records. -/
  | server
  | finish
  deriving DecidableEq

/-- **One statement of `drop`**, by whether the setup job is running. -/
def DropAt.step (here : DropAt) (me : O) (row : RowLock O SuiteSite) (isProvisioning : Bool) :
    Answer → Option (Option DropAt × RowLock O SuiteSite)
  | .goesOn =>
      match here with
      | .load => (row.lock me).map fun locked =>
          if locked.latest.status = .dropped then (none, locked.release me)
          else (some .check, locked)
      | .check =>
          if isProvisioning then (row.lock me).map fun noted => (some .finish, noted)
          else (row.write me SuiteSite.dropping).map fun written => (some .checkpoint, written)
      | .checkpoint => some (some .server, row.commit me)
      | .server => (row.write me SuiteSite.dropped).map fun written => (some .finish, written)
      | .finish => some (none, row.commit me)
  | .raises =>
      match here with
      | .server => ((row.undo me).lock me).map fun noted => (some .finish, noted)
      | _ => none
  | .dies => some (none, row.release me)
  | _ => none

theorem DropAt.step_committed {here : DropAt} {left : Option DropAt} {isProvisioning : Bool}
    (taken : here.step me row isProvisioning answer = some (left, after)) :
    after.committed = row.committed ∨ after = row.commit me := by
  cases answer with
  | goesOn =>
    cases here with
    | load =>
      obtain ⟨locked, got, made⟩ := Option.map_eq_some_iff.mp taken
      split at made
      · obtain ⟨rfl, rfl⟩ := Prod.mk.inj made
        rw [RowLock.committed_release]
        exact Or.inl (RowLock.committed_write got)
      · obtain ⟨rfl, rfl⟩ := Prod.mk.inj made
        exact Or.inl (RowLock.committed_write got)
    | check =>
      unfold DropAt.step at taken
      dsimp only at taken
      split at taken
      · obtain ⟨noted, got, made⟩ := Option.map_eq_some_iff.mp taken
        obtain ⟨rfl, rfl⟩ := Prod.mk.inj made
        exact Or.inl (RowLock.committed_write got)
      · obtain ⟨written, got, made⟩ := Option.map_eq_some_iff.mp taken
        obtain ⟨rfl, rfl⟩ := Prod.mk.inj made
        exact Or.inl (RowLock.committed_write got)
    | server =>
      obtain ⟨written, got, made⟩ := Option.map_eq_some_iff.mp taken
      obtain ⟨rfl, rfl⟩ := Prod.mk.inj made
      exact Or.inl (RowLock.committed_write got)
    | checkpoint | finish =>
      obtain ⟨rfl, rfl⟩ := Prod.mk.inj (Option.some.inj taken)
      exact Or.inr rfl
  | raises =>
    cases here with
    | server =>
      obtain ⟨noted, got, made⟩ := Option.map_eq_some_iff.mp taken
      obtain ⟨rfl, rfl⟩ := Prod.mk.inj made
      rw [RowLock.committed_write got, RowLock.committed_undo]
      exact Or.inl rfl
    | _ => cases taken
  | dies =>
    obtain ⟨rfl, rfl⟩ := Prod.mk.inj (Option.some.inj taken)
    exact Or.inl RowLock.committed_release
  | _ => cases taken

/-! ## Requests -/

/-- A call of `retry`: the document it was given, and whether it has written. -/
structure Retry where
  doc : SuiteSite
  isDone : Bool
  deriving DecidableEq

/-- `retry`, up to the commit of the request. -/
def Retry.write (retry : Retry) (me : O) (row : RowLock O SuiteSite) :
    Option (Retry × RowLock O SuiteSite) :=
  if retry.isDone then none
  else if retry.doc.status = .failed then
    (row.write me (SuiteSite.resumed retry.doc)).map fun written =>
      (⟨SuiteSite.resumed retry.doc retry.doc, true⟩, written)
  else some (⟨retry.doc, true⟩, row)

/-- The statement of `rotate_secret` a call stands at. -/
inductive RotationAt
  /-- The live site is loaded. -/
  | loaded
  /-- The tenant is saved with the new secret. -/
  | saved
  /-- `if site.suite_configured`. -/
  | clear
  /-- `if site.status == "Active"`, the second time. -/
  | unassign
  /-- The end of the call, with whether a job is to be queued. -/
  | done (requeues : Bool)
  deriving DecidableEq

/-- A call of `rotate_secret`, with the document of the site. -/
structure Rotation where
  stands : RotationAt
  doc : SuiteSite
  deriving DecidableEq

/-- **One statement of `push_secret_to_site`**; `reached` is whether the new secret got to an Active
site. -/
def Rotation.push (rotation : Rotation) (me : O) (row : RowLock O SuiteSite) (reached : Bool) :
    Option (Rotation × RowLock O SuiteSite) :=
  match rotation.stands with
  | .saved =>
      if rotation.doc.status = .active ∧ reached then some (⟨.done false, rotation.doc⟩, row)
      else some (⟨.clear, rotation.doc⟩, row)
  | .clear =>
      if rotation.doc.suiteConfigured then
        (row.write me SuiteSite.unconfigured).map fun written =>
          (⟨.unassign, rotation.doc.unconfigured⟩, written)
      else some (⟨.done false, rotation.doc⟩, row)
  | .unassign =>
      if rotation.doc.status = .active then
        (row.write me SuiteSite.assigned).map fun written =>
          (⟨.done true, rotation.doc.assigned⟩, written)
      else some (⟨.done true, rotation.doc⟩, row)
  | _ => none

theorem Retry.write_eq_some {retry done : Retry} (taken : retry.write me row = some (done, after)) :
    (retry.doc.status = .failed ∧ row.write me (SuiteSite.resumed retry.doc) = some after) ∨
      (retry.doc.status ≠ .failed ∧ after = row) := by
  unfold Retry.write at taken
  split at taken
  · cases taken
  split at taken
  · next failed =>
    obtain ⟨written, got, made⟩ := Option.map_eq_some_iff.mp taken
    obtain ⟨rfl, rfl⟩ := Prod.mk.inj made
    exact Or.inl ⟨failed, got⟩
  · next other =>
    obtain ⟨rfl, rfl⟩ := Prod.mk.inj (Option.some.inj taken)
    exact Or.inr ⟨other, rfl⟩

/-- **What `push_secret_to_site` does**, with its guards. -/
inductive Rotation.Pushes (rotation : Rotation) (me : O) (row : RowLock O SuiteSite) (reached : Bool) :
    Rotation → RowLock O SuiteSite → Prop
  | reached : rotation.stands = .saved → rotation.doc.status = .active → reached = true →
      Pushes rotation me row reached ⟨.done false, rotation.doc⟩ row
  | unreached : rotation.stands = .saved → (rotation.doc.status = .active → reached = false) →
      Pushes rotation me row reached ⟨.clear, rotation.doc⟩ row
  | clears (after : RowLock O SuiteSite) : rotation.stands = .clear →
      rotation.doc.suiteConfigured = true → row.write me SuiteSite.unconfigured = some after →
      Pushes rotation me row reached ⟨.unassign, rotation.doc.unconfigured⟩ after
  | unconfigured : rotation.stands = .clear → rotation.doc.suiteConfigured = false →
      Pushes rotation me row reached ⟨.done false, rotation.doc⟩ row
  | unassigns (after : RowLock O SuiteSite) : rotation.stands = .unassign →
      rotation.doc.status = .active → row.write me SuiteSite.assigned = some after →
      Pushes rotation me row reached ⟨.done true, rotation.doc.assigned⟩ after
  | requeues : rotation.stands = .unassign → rotation.doc.status ≠ .active →
      Pushes rotation me row reached ⟨.done true, rotation.doc⟩ row

theorem Rotation.pushes_of_push {rotation done : Rotation} {reached : Bool}
    (taken : rotation.push me row reached = some (done, after)) :
    rotation.Pushes me row reached done after := by
  unfold Rotation.push at taken
  split at taken
  · next here =>
    split at taken
    · next pushed =>
      obtain ⟨rfl, rfl⟩ := Prod.mk.inj (Option.some.inj taken)
      exact .reached here pushed.1 pushed.2
    · next missed =>
      obtain ⟨rfl, rfl⟩ := Prod.mk.inj (Option.some.inj taken)
      refine .unreached here fun active => ?_
      rw [← Bool.not_eq_true]
      exact fun reached => missed ⟨active, reached⟩
  · next here =>
    split at taken
    · next configured =>
      obtain ⟨written, got, made⟩ := Option.map_eq_some_iff.mp taken
      obtain ⟨rfl, rfl⟩ := Prod.mk.inj made
      exact .clears _ here configured got
    · next unconfigured =>
      obtain ⟨rfl, rfl⟩ := Prod.mk.inj (Option.some.inj taken)
      exact .unconfigured here (Bool.not_eq_true _ ▸ unconfigured)
  · next here =>
    split at taken
    · next active =>
      obtain ⟨written, got, made⟩ := Option.map_eq_some_iff.mp taken
      obtain ⟨rfl, rfl⟩ := Prod.mk.inj made
      exact .unassigns _ here active got
    · next other =>
      obtain ⟨rfl, rfl⟩ := Prod.mk.inj (Option.some.inj taken)
      exact .requeues here other
  · cases taken

end SuiteCloud.Hosting.Sites
