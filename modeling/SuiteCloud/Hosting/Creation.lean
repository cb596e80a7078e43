/-
**A site created on a server is in the books.**

One Suite Site from its insert on: its provision jobs, one at a time, any number of `retry` calls, and
Pilot on each server, which runs at most one create task for an idempotency key and answers the same
task again. Placement, the request to Pilot and the first commit are one step of the job; the worker
may die, and any statement may raise, in between.

* `Pilot` — a server's tasks and sites, with what Pilot promises as fields.
* `keepsPlacement` — the worker neither dies nor raises between a request that Pilot took and the
  commit that keeps the server it was sent to.
* `Booked` — a create task that has not failed is the one the record's version names.
* `created_site_is_booked` — **between two jobs, every site created for the record is the one it
  names**, and a record that is Ready or Assigned names a site that exists.
* `created_site_is_lost` — the worker dies in between, and the site is created on a server that the
  record never names.
-/

import SuiteCloud.Hosting.Sites
import SuiteCloud.Library.Transition

set_option linter.unusedSectionVars false

namespace SuiteCloud.Hosting.Creation

open SuiteCloud.Library
open SuiteCloud.Hosting.Claims (Status)
open SuiteCloud.Hosting.Sites

/-! ## Pilot -/

inductive TaskStatus
  | running
  | success
  | failed
  deriving DecidableEq

/-- A create task of this Suite Site. -/
structure PilotTask where
  id : String
  key : String
  host : String
  status : TaskStatus
  deriving DecidableEq

/-- **A server's Pilot**: a task for each key, and a site for each that succeeded. -/
structure Pilot where
  tasks : List PilotTask
  sites : List String
  ids : (tasks.map PilotTask.id).Nodup
  keys : (tasks.map PilotTask.key).Nodup
  created : ∀ task ∈ tasks, task.status = .success → task.host ∈ sites

namespace Pilot

/-- A server with the sites of others. -/
def fresh (sites : List String) : Pilot :=
  ⟨[], sites, List.nodup_nil, List.nodup_nil, fun _ member => nomatch member⟩

/-- The task of an id. -/
def task (pilot : Pilot) (id : String) : Option PilotTask := pilot.tasks.find? fun task => task.id = id

/-- **`create_site`**: the task of the key, or a new one. -/
def createSite (pilot : Pilot) (id key host : String) : Option Pilot :=
  match found : pilot.tasks.find? fun task => task.key = key with
  | some task => if task.id = id then some pilot else none
  | none =>
      if known : id ∈ pilot.tasks.map PilotTask.id then none
      else some
        { tasks := ⟨id, key, host, .running⟩ :: pilot.tasks
          sites := pilot.sites
          ids := List.nodup_cons.mpr ⟨known, pilot.ids⟩
          keys := List.nodup_cons.mpr ⟨fun member => by
            obtain ⟨task, there, same⟩ := List.mem_map.mp member
            exact List.find?_eq_none.mp found task there (decide_eq_true same), pilot.keys⟩
          created := fun task member success => by
            obtain rfl | there := List.mem_cons.mp member
            · cases success
            · exact pilot.created task there success }

/-- A running task ends. -/
def endTask (id : String) (succeeds : Bool) (task : PilotTask) : PilotTask :=
  if task.id = id ∧ task.status = .running then
    { task with status := if succeeds then .success else .failed }
  else task

@[simp] theorem id_endTask (id : String) (succeeds : Bool) (task : PilotTask) :
    (endTask id succeeds task).id = task.id := by
  delta endTask
  split <;> rfl

@[simp] theorem key_endTask (id : String) (succeeds : Bool) (task : PilotTask) :
    (endTask id succeeds task).key = task.key := by
  delta endTask
  split <;> rfl

@[simp] theorem host_endTask (id : String) (succeeds : Bool) (task : PilotTask) :
    (endTask id succeeds task).host = task.host := by
  delta endTask
  split <;> rfl

theorem failed_endTask {id : String} {succeeds : Bool} {task : PilotTask} (failed : task.status = .failed) :
    (endTask id succeeds task).status = .failed := by
  delta endTask
  split
  · next running =>
    rw [failed] at running
    cases running.2
  · exact failed

/-- A running task ends: a site for one that succeeds, nothing for one that fails. -/
def ends (pilot : Pilot) (id : String) (succeeds : Bool) : Pilot where
  tasks := pilot.tasks.map (endTask id succeeds)
  sites := (pilot.tasks.filter fun task => (endTask id succeeds task).status = .success).map PilotTask.host ++
    pilot.sites
  ids := by
    rw [List.map_map,
      show PilotTask.id ∘ endTask id succeeds = PilotTask.id from funext (id_endTask id succeeds)]
    exact pilot.ids
  keys := by
    rw [List.map_map,
      show PilotTask.key ∘ endTask id succeeds = PilotTask.key from funext (key_endTask id succeeds)]
    exact pilot.keys
  created := by
    intro task member success
    obtain ⟨before, there, rfl⟩ := List.mem_map.mp member
    rw [host_endTask]
    exact List.mem_append_left _ (List.mem_map_of_mem
      (List.mem_filter.mpr ⟨there, decide_eq_true success⟩))

variable {pilot after : Pilot} {id key host : String}

theorem task_eq_some {task : PilotTask} : pilot.task id = some task ↔ task ∈ pilot.tasks ∧ task.id = id := by
  constructor
  · intro found
    have same := List.find?_some (p := fun task : PilotTask => decide (task.id = id)) found
    exact ⟨List.mem_of_find?_eq_some found, decide_eq_true_iff.mp same⟩
  · rintro ⟨there, rfl⟩
    cases found : pilot.task task.id with
    | none => exact absurd (decide_eq_true rfl) (List.find?_eq_none.mp found task there)
    | some other =>
      have same := List.find?_some (p := fun other : PilotTask => decide (other.id = task.id)) found
      rw [List.inj_on_of_nodup_map pilot.ids (List.mem_of_find?_eq_some found) there
        (decide_eq_true_iff.mp same)]

/-- **What `create_site` answers and leaves**: the answer is the task of the key, and the only new task
is a running one for this key and host. -/
theorem createSite_eq_some (done : pilot.createSite id key host = some after) :
    (∃ task ∈ after.tasks, task.id = id ∧ task.key = key) ∧ after.sites = pilot.sites ∧
      (∀ task ∈ pilot.tasks, task ∈ after.tasks) ∧
      ∀ task ∈ after.tasks, task ∈ pilot.tasks ∨ (task.host = host ∧ task.key = key) := by
  unfold createSite at done
  split at done
  · next task found =>
    split at done
    · next same =>
      obtain rfl := Option.some.inj done
      have key_ := List.find?_some (p := fun task : PilotTask => decide (task.key = key)) found
      exact ⟨⟨task, List.mem_of_find?_eq_some found, same, decide_eq_true_iff.mp key_⟩, rfl,
        fun _ there => there, fun _ there => Or.inl there⟩
    · cases done
  · split at done
    · cases done
    · obtain rfl := Option.some.inj done
      refine ⟨⟨_, List.mem_cons_self, rfl, rfl⟩, rfl, fun _ => List.mem_cons_of_mem _, ?_⟩
      intro task there
      obtain rfl | there := List.mem_cons.mp there
      · exact Or.inr ⟨rfl, rfl⟩
      · exact Or.inl there

end Pilot

/-! ## The system -/

/-- Who writes the record. -/
inductive Owner (I : Type*)
  | job
  | retry (id : I)
  deriving DecidableEq

/-- The record, Pilot on each server, and what is under way. -/
structure State (I : Type*) where
  row : RowLock (Owner I) SuiteSite
  pilots : String → Pilot
  job : Option Job
  retries : I → Option Retry

inductive Action (I : Type*)
  /-- A worker takes a job that the insert, a `retry` or the poller has queued. -/
  | start
  | job (answer : Answer)
  /-- A task of a server ends. -/
  | pilot (server id : String) (succeeds : Bool)
  /-- A `retry` is given the record, read without a lock. -/
  | retry (id : I)
  | retryWrite (id : I)
  | retryCommit (id : I)
  | retryAbort (id : I)

variable {I : Type*} [DecidableEq I]

/-- The idempotency key of a create request. -/
def keyOf (doc : SuiteSite) : String := s!"{doc.name}:{doc.attempts}"

/-- A Suite Site as it is inserted: placed on a server, or waiting for one. -/
structure Inserted (site : SuiteSite) : Prop where
  pending : site.status = .pending
  created : site.siteCreated = false
  task : site.pilotTask = none

/-- An inserted record, and servers with the sites of others. -/
def State.initial (site : SuiteSite) (sites : String → List String) : State I :=
  ⟨.free site, fun server => .fresh (sites server), none, fun _ => none⟩

/-- The status of the task the document names. -/
def taskStatus (pilots : String → Pilot) (doc : SuiteSite) : Option TaskStatus :=
  doc.virtualMachine.bind fun server => doc.pilotTask.bind fun id =>
    ((pilots server).task id).map PilotTask.status

/-- **Pilot's part in a statement**: the servers after it, where Pilot answers so. -/
def ask (pilots : String → Pilot) (job : Job) (answer : Answer) : Option (String → Pilot) :=
  match job.stands, answer with
  | .look, .listed there =>
      job.doc.virtualMachine.bind fun server => job.doc.hostname.bind fun host =>
        if there = decide (host ∈ (pilots server).sites) then some pilots else none
  | .request, .task id =>
      job.doc.virtualMachine.bind fun server => job.doc.hostname.bind fun host =>
        ((pilots server).createSite id (keyOf job.doc) host).map (Function.update pilots server)
  | .wait, .running => if taskStatus pilots job.doc = some .running then some pilots else none
  | .wait, .succeeded => if taskStatus pilots job.doc = some .success then some pilots else none
  | .wait, .failed _ _ => if taskStatus pilots job.doc = some .failed then some pilots else none
  | _, _ => some pilots

def State.setRetry (s : State I) (id : I) (retry : Option Retry) : State I :=
  { s with retries := Function.update s.retries id retry }

/-- **One step of the system.** -/
def step (s : State I) : Action I → Option (State I)
  | .start =>
      if s.job.isNone then some { s with job := some (.starts s.row.committed) } else none
  | .job answer =>
      s.job.bind fun job => (ask s.pilots job answer).bind fun pilots =>
        (job.step .job s.row answer).map fun result =>
          { s with job := result.1, row := result.2, pilots := pilots }
  | .pilot server id succeeds =>
      some { s with
        pilots := Function.update s.pilots server ((s.pilots server).ends id succeeds) }
  | .retry id =>
      if (s.retries id).isNone then some (s.setRetry id (some ⟨s.row.committed, false⟩)) else none
  | .retryWrite id =>
      (s.retries id).bind fun retry => (retry.write (.retry id) s.row).map fun result =>
        { s.setRetry id (some result.1) with row := result.2 }
  | .retryCommit id =>
      (s.retries id).bind fun retry =>
        if retry.isDone then some { s.setRetry id none with row := s.row.commit (.retry id) }
        else none
  | .retryAbort id =>
      (s.retries id).map fun _ => { s.setRetry id none with row := s.row.release (.retry id) }

/-! ## The condition -/

/-- Every create task of a server has failed. -/
def allFailed (pilot : Pilot) : Bool := pilot.tasks.all fun task => task.status = .failed

/-- **The worker neither dies nor raises** while Pilot has a task, running or done, on the server that
the record's version names and no committed version does. -/
def keepsPlacement (s : State I) : Action I → Prop
  | .job answer => answer = .dies ∨ answer = .raises → s.row.committed.virtualMachine = none →
      ∀ server ∈ (s.row.seen .job).virtualMachine, allFailed (s.pilots server)
  | _ => True

/-- Ready, or further on: the site has been created. -/
def isCreated : Status → Bool
  | .ready | .assigned | .configuring | .active => true
  | .pending | .creating | .failed | .dropping | .dropped => false

/-! ## The invariant -/

/-- The fields a create request is made from. -/
def place (row : SuiteSite) : String × Option String × Option String × ℕ :=
  (row.name, row.virtualMachine, row.hostname, row.attempts)

/-- **A task that has not failed is the one a version names**: its server, its hostname, its key. -/
def Booked (pilots : String → Pilot) (row : SuiteSite) : Prop :=
  ∀ server, ∀ task ∈ (pilots server).tasks, task.status ≠ .failed →
    row.virtualMachine = some server ∧ row.hostname = some task.host ∧ task.key = keyOf row

/-- What a version of the record says is so. -/
structure Sound (pilots : String → Pilot) (row : SuiteSite) : Prop where
  task : ∀ id, row.pilotTask = some id → ∃ server, row.virtualMachine = some server ∧
    ∃ task ∈ (pilots server).tasks, task.id = id ∧ task.key = keyOf row
  site : row.siteCreated = true ∨ isCreated row.status → ∃ server host,
    row.virtualMachine = some server ∧ row.hostname = some host ∧ host ∈ (pilots server).sites
  idle : row.siteCreated = true → row.pilotTask = none

/-- The statements of `create` from `create_site` on, up to its end. -/
def isCreating : At → Bool
  | .request | .answered _ | .checkpoint | .wait => true
  | _ => false

/-- The statements of `configure`. -/
def isConfiguring : At → Bool
  | .configure | .connect | .send | .sent | .keep | .activate => true
  | _ => false

theorem isInStep_of_isCreating {stands : At} (creating : isCreating stands) : stands.isInStep := by
  unfold isCreating at creating
  split at creating
  · rfl
  · rfl
  · rfl
  · rfl
  · cases creating

theorem isInStep_of_mayWait {stands : At} (may : stands.mayWait) : stands.isInStep := by
  unfold At.mayWait at may
  split at may
  · rfl
  · rfl
  · rfl
  · rfl
  · rfl
  · rfl
  · rfl
  · cases may

theorem isInStep_of_isConfiguring {stands : At} (configures : isConfiguring stands) :
    stands.isInStep := by
  unfold isConfiguring at configures
  split at configures
  · rfl
  · rfl
  · rfl
  · rfl
  · rfl
  · rfl
  · cases configures

/-- What holds of the job in memory, by the version its transaction sees and the committed one. -/
structure JobOk (pilots : String → Pilot) (committed seen : SuiteSite) (job : Job) : Prop where
  place : job.stands.isInStep → place job.doc = place seen
  created : job.stands.isInStep → job.doc.siteCreated = seen.siteCreated
  sound : job.stands.isInStep → Sound pilots job.doc
  fresh : isCreating job.stands → job.doc.siteCreated = false
  answered : ∀ id, job.stands = .answered id → ∃ server, job.doc.virtualMachine = some server ∧
    ∃ task ∈ (pilots server).tasks, task.id = id ∧ task.key = keyOf job.doc
  waits : job.stands = .wait → Creation.place committed = Creation.place seen
  configures : isConfiguring job.stands → isCreated job.doc.status

/-- **The books of the job**: the record, Pilot and the job under way. -/
structure Books (pilots : String → Pilot) (row : RowLock (Owner I) SuiteSite) (job : Option Job) :
    Prop where
  booked : Booked pilots (row.seen .job)
  seen : Sound pilots (row.seen .job)
  committed : Sound pilots row.committed
  grows : row.committed.siteCreated = true → (row.seen .job).siteCreated = true
  /-- Only the placement, and a reroll at the end of its step, are not committed at once. -/
  opens : place row.committed = place (row.seen .job) ∨ row.committed.virtualMachine = none ∨
    ((∃ here advanced, job = some here ∧ here.stands = .finish advanced) ∧
      ∀ server, allFailed (pilots server))
  running : ∀ here, job = some here → JobOk pilots row.committed (row.seen .job) here
  /-- At the head of its loop, and when it is over, the job has nothing open. -/
  free : (∀ here, job = some here → here.stands = .load) → ∀ version, row.held ≠ some (.job, version)

/-- **The invariant.** -/
structure Inv (s : State I) : Prop where
  books : Books s.pilots s.row s.job
  held : ∀ id version, s.row.held = some (.retry id, version) → Sound s.pilots version ∧
    place version = place s.row.committed ∧ version.siteCreated = s.row.committed.siteCreated
  retries : ∀ id retry, s.retries id = some retry → retry.isDone = false →
    retry.doc.siteCreated = true → s.row.committed.siteCreated = true

variable {pilots later : String → Pilot} {row after : RowLock (Owner I) SuiteSite}
  {site other : SuiteSite} {job : Job} {left : Option Job} {answer : Answer}

/-! ### Versions of one place -/

theorem place_eq (same : place site = place other) : site.name = other.name ∧
    site.virtualMachine = other.virtualMachine ∧ site.hostname = other.hostname ∧
    site.attempts = other.attempts := by
  unfold place at same
  simp only [Prod.mk.injEq] at same
  exact same

theorem keyOf_congr (same : place site = place other) : keyOf site = keyOf other := by
  obtain ⟨name, -, -, attempts⟩ := place_eq same
  rw [keyOf, keyOf, name, attempts]

theorem Booked.congr (booked : Booked pilots site) (same : place other = place site) :
    Booked pilots other := by
  intro server task there alive
  obtain ⟨-, machine, host, -⟩ := place_eq same
  rw [machine, host, keyOf_congr same]
  exact booked server task there alive

/-- A version of the same place is sound if it names a task only where the other does, and has been
created only where the other has. -/
theorem Sound.congr (sound : Sound pilots site) (same : place other = place site)
    (task : ∀ id, other.pilotTask = some id → site.pilotTask = some id)
    (created : other.siteCreated = true ∨ isCreated other.status →
      site.siteCreated = true ∨ isCreated site.status)
    (idle : other.siteCreated = true → other.pilotTask = none) : Sound pilots other := by
  obtain ⟨-, machine, host, -⟩ := place_eq same
  refine ⟨fun id names => ?_, fun makes => ?_, idle⟩
  · rw [machine, keyOf_congr same]
    exact sound.task id (task id names)
  · rw [machine, host]
    exact sound.site (created makes)

theorem Sound.uncreated_of_task {id : String} (sound : Sound pilots site)
    (names : site.pilotTask = some id) : site.siteCreated = false := by
  by_contra made
  have none_ := sound.idle (Bool.not_eq_false _ ▸ made)
  rw [names] at none_
  cases none_

theorem Sound.uncreated_of_absent {server host : String} (sound : Sound pilots site)
    (machine : site.virtualMachine = some server) (named : site.hostname = some host)
    (absent : host ∉ (pilots server).sites) : site.siteCreated = false := by
  by_contra made
  obtain ⟨server', host', machine', named', there⟩ := sound.site (Or.inl (Bool.not_eq_false _ ▸ made))
  obtain rfl : server = server' := Option.some.inj (machine.symm.trans machine')
  obtain rfl : host = host' := Option.some.inj (named.symm.trans named')
  exact absent there

theorem booked_of_allFailed (failed : ∀ server, allFailed (pilots server)) : Booked pilots site := by
  intro server task there alive
  have none_ := List.all_eq_true.mp (failed server) task there
  exact absurd (decide_eq_true_iff.mp none_) alive

/-! ### Servers that go on -/

/-- Tasks and sites of a server stay. -/
structure Grows (before after : String → Pilot) : Prop where
  tasks : ∀ server, ∀ task ∈ (before server).tasks, ∃ task' ∈ (after server).tasks,
    task'.id = task.id ∧ task'.key = task.key
  sites : ∀ server, ∀ host ∈ (before server).sites, host ∈ (after server).sites

theorem Grows.refl (pilots : String → Pilot) : Grows pilots pilots :=
  ⟨fun _ task there => ⟨task, there, rfl, rfl⟩, fun _ _ there => there⟩

theorem grows_update {server : String} {pilot : Pilot}
    (tasks : ∀ task ∈ (pilots server).tasks, ∃ task' ∈ pilot.tasks,
      task'.id = task.id ∧ task'.key = task.key)
    (sites : ∀ host ∈ (pilots server).sites, host ∈ pilot.sites) :
    Grows pilots (Function.update pilots server pilot) := by
  constructor
  · intro other task there
    by_cases same : other = server
    · subst same
      rw [Function.update_self]
      exact tasks task there
    · rw [Function.update_of_ne same]
      exact ⟨task, there, rfl, rfl⟩
  · intro other host there
    by_cases same : other = server
    · subst same
      rw [Function.update_self]
      exact sites host there
    · rw [Function.update_of_ne same]
      exact there

theorem grows_ends (pilots : String → Pilot) (server id : String) (succeeds : Bool) :
    Grows pilots (Function.update pilots server ((pilots server).ends id succeeds)) :=
  grows_update
    (fun _ there => ⟨_, List.mem_map_of_mem there, Pilot.id_endTask .., Pilot.key_endTask ..⟩)
    fun _ there => List.mem_append_right _ there

theorem Sound.grow (sound : Sound pilots site) (grows : Grows pilots later) : Sound later site := by
  refine ⟨fun id names => ?_, fun makes => ?_, sound.idle⟩
  · obtain ⟨server, machine, task, there, same, key⟩ := sound.task id names
    obtain ⟨task', there', same', key'⟩ := grows.tasks server task there
    exact ⟨server, machine, task', there', same'.trans same, key'.trans key⟩
  · obtain ⟨server, host, machine, named, there⟩ := sound.site makes
    exact ⟨server, host, machine, named, grows.sites server host there⟩

theorem JobOk.grow {committed seen : SuiteSite} (ok : JobOk pilots committed seen job)
    (grows : Grows pilots later) : JobOk later committed seen job where
  place := ok.place
  created := ok.created
  sound := fun inStep => (ok.sound inStep).grow grows
  fresh := ok.fresh
  answered := by
    intro id here
    obtain ⟨server, machine, task, there, same, key⟩ := ok.answered id here
    obtain ⟨task', there', same', key'⟩ := grows.tasks server task there
    exact ⟨server, machine, task', there', same'.trans same, key'.trans key⟩
  waits := ok.waits
  configures := ok.configures

/-- A task ends: those that have not failed are named as before. -/
theorem Books.ends (books : Books pilots row left) (server id : String) (succeeds : Bool) :
    Books (Function.update pilots server ((pilots server).ends id succeeds)) row left := by
  have grows := grows_ends pilots server id succeeds
  have tasks (other : String) (task : PilotTask)
      (there : task ∈ (Function.update pilots server ((pilots server).ends id succeeds) other).tasks) :
      ∃ before ∈ (pilots other).tasks, task.host = before.host ∧ task.key = before.key ∧
        (before.status = .failed → task.status = .failed) := by
    by_cases same : other = server
    · subst same
      rw [Function.update_self] at there
      obtain ⟨before, member, rfl⟩ := List.mem_map.mp there
      exact ⟨before, member, Pilot.host_endTask .., Pilot.key_endTask .., Pilot.failed_endTask⟩
    · rw [Function.update_of_ne same] at there
      exact ⟨task, there, rfl, rfl, fun failed => failed⟩
  refine ⟨?_, books.seen.grow grows, books.committed.grow grows, books.grows, ?_,
    fun here running => (books.running here running).grow grows, books.free⟩
  · intro other task there alive
    obtain ⟨before, member, host, key, failed⟩ := tasks other task there
    rw [host, key]
    exact books.booked other before member fun dead => alive (failed dead)
  · refine books.opens.imp_right (Or.imp_right (And.imp_right fun failed other => ?_))
    refine List.all_eq_true.mpr fun task there => ?_
    obtain ⟨before, member, -, -, still⟩ := tasks other task there
    have dead := List.all_eq_true.mp (failed other) before member
    exact decide_eq_true (still (decide_eq_true_iff.mp dead))

/-! ## The job -/

variable {me : Owner I}

theorem JobOk.goesOn {committed seen now : SuiteSite} {next : At} (ok : JobOk pilots committed seen job)
    (inStep : job.stands.isInStep) (fresh : isCreating next → job.doc.siteCreated = false)
    (unanswered : ∀ id, next ≠ .answered id)
    (waits : next = .wait → Creation.place now = Creation.place seen)
    (configures : isConfiguring next → isCreated job.doc.status) :
    JobOk pilots now seen ⟨next, job.doc⟩ := by
  refine ⟨fun _ => ok.place inStep, fun _ => ok.created inStep, fun _ => ok.sound inStep, fresh, ?_,
    waits, configures⟩
  intro id here
  exact absurd here (unanswered id)

/-- A job outside its steps has nothing in memory that counts. -/
theorem JobOk.outside {committed seen : SuiteSite} (out : job.stands.isInStep = false) :
    JobOk pilots committed seen job := by
  have absurd_ {goal : Prop} (inStep : job.stands.isInStep) : goal := by
    rw [out] at inStep
    cases inStep
  refine ⟨absurd_, absurd_, absurd_, fun creating => absurd_ (isInStep_of_isCreating creating),
    fun id here => ?_, fun here => ?_, fun configures => absurd_ (isInStep_of_isConfiguring configures)⟩
  · exact absurd_ (by rw [here]; rfl)
  · exact absurd_ (by rw [here]; rfl)

namespace Books

theorem opens_inStep (books : Books pilots row (some job))
    (unfinished : ∀ advanced, job.stands ≠ .finish advanced) :
    place row.committed = place (row.seen .job) ∨ row.committed.virtualMachine = none := by
  obtain same | unplaced | ⟨⟨here, advanced, running, stands⟩, -⟩ := books.opens
  · exact Or.inl same
  · exact Or.inr unplaced
  · obtain rfl := Option.some.inj running
    exact absurd stands (unfinished advanced)

theorem booked_committed (books : Books pilots row left)
    (kept : row.committed.virtualMachine = none →
      ∀ server ∈ (row.seen .job).virtualMachine, allFailed (pilots server)) :
    Booked pilots row.committed := by
  obtain same | unplaced | ⟨-, failed⟩ := books.opens
  · exact books.booked.congr same
  · intro server task there alive
    obtain ⟨machine, -⟩ := books.booked server task there alive
    have dead := List.all_eq_true.mp (kept unplaced server machine) task there
    exact absurd (decide_eq_true_iff.mp dead) alive
  · exact booked_of_allFailed failed

/-- **A write of the job.** -/
theorem write {change : SuiteSite → SuiteSite} {next : At} (books : Books pilots row (some job))
    (written : row.write .job change = some after) (booked : Booked pilots (change (row.seen .job)))
    (sound : Sound pilots (change (row.seen .job)))
    (grows : (row.seen .job).siteCreated = true → (change (row.seen .job)).siteCreated = true)
    (opens : place row.committed = place (change (row.seen .job)) ∨
      row.committed.virtualMachine = none ∨
        ((∃ advanced, next = .finish advanced) ∧ ∀ server, allFailed (pilots server)))
    (ok : JobOk pilots row.committed (change (row.seen .job)) ⟨next, change job.doc⟩)
    (stands : next ≠ .load) : Books pilots after (some ⟨next, change job.doc⟩) := by
  have seen := RowLock.seen_write written
  have committed := RowLock.committed_write written
  refine ⟨?_, ?_, ?_, ?_, ?_, ?_, ?_⟩
  · rw [seen]
    exact booked
  · rw [seen]
    exact sound
  · rw [committed]
    exact books.committed
  · rw [seen, committed]
    exact fun created => grows (books.grows created)
  · rw [seen, committed]
    refine opens.imp_right (Or.imp_right (And.imp_left ?_))
    rintro ⟨advanced, rfl⟩
    exact ⟨_, advanced, rfl, rfl⟩
  · rintro here running
    obtain rfl := Option.some.inj running
    rw [seen, committed]
    exact ok
  · intro atHead
    exact absurd (atHead _ rfl) stands

theorem writeInPlace {change : SuiteSite → SuiteSite} {next : At} (books : Books pilots row (some job))
    (inStep : job.stands.isInStep) (written : row.write .job change = some after)
    (same : place (change (row.seen .job)) = place (row.seen .job))
    (sound : Sound pilots (change (row.seen .job)))
    (grows : (row.seen .job).siteCreated = true → (change (row.seen .job)).siteCreated = true)
    (ok : JobOk pilots row.committed (change (row.seen .job)) ⟨next, change job.doc⟩)
    (stands : next ≠ .load) : Books pilots after (some ⟨next, change job.doc⟩) := by
  refine books.write written (books.booked.congr same) sound grows ?_ ok stands
  rw [same]
  refine (books.opens_inStep fun advanced finish => ?_).imp_right Or.inl
  rw [finish] at inStep
  cases inStep

/-- The place is picked. -/
theorem placed {server host : String} (books : Books pilots row (some job))
    (here : job.stands = .create) (unplaced : job.doc.virtualMachine = none)
    (written : row.write .job (SuiteSite.placed server host) = some after) :
    Books pilots after (some ⟨.look, SuiteSite.placed server host job.doc⟩) := by
  have ok := books.running job rfl
  have inStep : job.stands.isInStep := by
    rw [here]
    rfl
  obtain ⟨name, machine, -, attempts⟩ := place_eq (ok.place inStep)
  rw [unplaced] at machine
  have nowhere {goal : Prop} {server : String} (there : (row.seen .job).virtualMachine = some server) :
      goal := by
    rw [← machine] at there
    cases there
  -- Nothing has been asked of Pilot before the record is placed.
  have unsent {site : SuiteSite} (sound : Sound pilots site) (same : site.virtualMachine = none) :
      Sound pilots (SuiteSite.placed server host site) := by
    refine ⟨fun id names => ?_, fun makes => ?_, sound.idle⟩
    · obtain ⟨server, there, -⟩ := sound.task id names
      rw [same] at there
      cases there
    · obtain ⟨server, host, there, -⟩ := sound.site makes
      rw [same] at there
      cases there
  refine books.write written ?_ (unsent books.seen machine.symm) (fun created => created)
    (Or.inr (Or.inl ?_)) ?_ nofun
  · intro server task there alive
    exact nowhere (books.booked server task there alive).1
  · obtain same | none_ := books.opens_inStep (fun advanced => by rw [here]; exact nofun)
    · rw [(place_eq same).2.1, ← machine]
    · exact none_
  · refine ⟨fun _ => ?_, fun _ => ok.created inStep, fun _ => unsent (ok.sound inStep) unplaced, nofun,
      nofun, nofun, nofun⟩
    rw [Creation.place, Creation.place]
    simp only [SuiteSite.placed, name, attempts]

theorem createdSite {server host : String} (books : Books pilots row (some job))
    (inStep : job.stands.isInStep) (machine : (row.seen .job).virtualMachine = some server)
    (named : (row.seen .job).hostname = some host) (there : host ∈ (pilots server).sites)
    (written : row.write .job (SuiteSite.created job.doc) = some after) :
    Books pilots after (some ⟨.finish true, SuiteSite.created job.doc job.doc⟩) := by
  refine books.writeInPlace inStep written rfl ?_ (fun _ => rfl) (.outside rfl) nofun
  exact ⟨nofun, fun _ => ⟨server, host, machine, named, there⟩, fun _ => rfl⟩

theorem creating {task : String} (books : Books pilots row (some job))
    (here : job.stands = .answered task)
    (written : row.write .job (SuiteSite.creating task) = some after) :
    Books pilots after (some ⟨.checkpoint, SuiteSite.creating task job.doc⟩) := by
  have ok := books.running job rfl
  have inStep : job.stands.isInStep := by
    rw [here]
    rfl
  have fresh : job.doc.siteCreated = false := ok.fresh (by rw [here]; rfl)
  have unmade : (row.seen .job).siteCreated = false := (ok.created inStep).symm.trans fresh
  obtain ⟨server, machine, names⟩ := ok.answered task here
  have same := place_eq (ok.place inStep)
  have sound {site : SuiteSite} (at_ : site.virtualMachine = some server)
      (key : keyOf site = keyOf job.doc) (uncreated : site.siteCreated = false) :
      Sound pilots (SuiteSite.creating task site) := by
    refine ⟨fun id is => ⟨server, at_, ?_⟩, ?_, fun created => ?_⟩
    · obtain rfl := Option.some.inj is
      obtain ⟨found, member, id_, key_⟩ := names
      exact ⟨found, member, id_, key_.trans key.symm⟩
    · rintro (created | status)
      · exact (Bool.false_ne_true (uncreated.symm.trans created)).elim
      · cases status
    · exact (Bool.false_ne_true (uncreated.symm.trans created)).elim
  refine books.writeInPlace inStep written rfl
    (sound (same.2.1 ▸ machine) (keyOf_congr (ok.place inStep)).symm unmade)
    (fun created => created) ?_ nofun
  exact ⟨fun _ => ok.place inStep, fun _ => ok.created inStep, fun _ => sound machine rfl fresh,
    fun _ => fresh, nofun, nofun, nofun⟩

theorem rerolled {host : String} (books : Books pilots row (some job)) (here : job.stands = .wait)
    (failed : ∀ server, allFailed (pilots server))
    (written : row.write .job (SuiteSite.rerolled job.doc host) = some after) :
    Books pilots after (some ⟨.finish true, SuiteSite.rerolled job.doc host job.doc⟩) := by
  have ok := books.running job rfl
  have inStep : job.stands.isInStep := by
    rw [here]
    rfl
  have unmade : (row.seen .job).siteCreated = false :=
    (ok.created inStep).symm.trans (ok.fresh (by rw [here]; rfl))
  refine books.write written (booked_of_allFailed failed) ⟨nofun, ?_, fun _ => rfl⟩
    (fun created => created) (Or.inr (Or.inr ⟨⟨true, rfl⟩, failed⟩)) (.outside rfl) nofun
  rintro (created | status)
  · exact (Bool.false_ne_true (unmade.symm.trans created)).elim
  · cases status

/-- A write of `configure`. -/
theorem configured {change : SuiteSite → SuiteSite} {next : At} (books : Books pilots row (some job))
    (here : isConfiguring job.stands)
    (frame : ∀ site, place (change site) = place site ∧ (change site).siteCreated = site.siteCreated ∧
      (change site).pilotTask = site.pilotTask)
    (status : ∀ site, isCreated site.status → isCreated (change site).status)
    (stands : isConfiguring next ∨ next = .finish true)
    (written : row.write .job change = some after) :
    Books pilots after (some ⟨next, change job.doc⟩) := by
  have ok := books.running job rfl
  have inStep := isInStep_of_isConfiguring here
  have made := ok.configures here
  obtain ⟨server, host, machine, named, there⟩ := (ok.sound inStep).site (Or.inr made)
  have same := place_eq (ok.place inStep)
  have sound {site : SuiteSite} (sound : Sound pilots site) (at_ : site.virtualMachine = some server)
      (names : site.hostname = some host) : Sound pilots (change site) := by
    obtain ⟨place_, created, task⟩ := frame site
    obtain ⟨-, machine', host', -⟩ := place_eq place_
    refine ⟨fun id names => ?_, fun _ => ⟨server, host, machine'.trans at_, host'.trans names, there⟩,
      ?_⟩
    · rw [machine', keyOf_congr place_]
      exact sound.task id (task ▸ names)
    · rw [created, task]
      exact sound.idle
  have next_ : next ≠ .load := by
    rintro rfl
    obtain stands | stands := stands <;> cases stands
  refine books.writeInPlace inStep written (frame _).1
    (sound books.seen (same.2.1 ▸ machine) (same.2.2.1 ▸ named)) (fun created => ?_) ?_ next_
  · rw [(frame _).2.1]
    exact created
  · obtain stands | rfl := stands
    · refine ⟨fun _ => ?_, fun _ => ?_, fun _ => sound (ok.sound inStep) machine named, ?_, ?_, ?_,
        fun _ => status _ made⟩
      · exact (frame _).1.trans ((ok.place inStep).trans (frame _).1.symm)
      · exact (frame _).2.1.trans ((ok.created inStep).trans (frame _).2.1.symm)
      · intro creating
        revert stands creating
        cases next <;> exact nofun
      · rintro id rfl
        cases stands
      · rintro rfl
        cases stands
    · exact .outside rfl

/-- **What Pilot has for the version a running task is waited for**: its task, if it ended well, has
made the site; if it failed, no other is left. -/
theorem task_of_wait {status : TaskStatus} (books : Books pilots row (some job))
    (here : job.stands = .wait) (found : taskStatus pilots job.doc = some status) :
    ∃ server, (row.seen .job).virtualMachine = some server ∧
      ∃ task ∈ (pilots server).tasks, task.status = status ∧ task.key = keyOf (row.seen .job) := by
  have ok := books.running job rfl
  have inStep : job.stands.isInStep := by
    rw [here]
    rfl
  obtain ⟨server, machine, rest⟩ := Option.bind_eq_some_iff.mp found
  obtain ⟨id, names, rest⟩ := Option.bind_eq_some_iff.mp rest
  obtain ⟨task, is, rfl⟩ := Option.map_eq_some_iff.mp rest
  obtain ⟨there, same⟩ := Pilot.task_eq_some.mp is
  obtain ⟨server', machine', task', there', same', key⟩ := (ok.sound inStep).task id names
  rw [machine] at machine'
  obtain rfl := Option.some.inj machine'
  have equal := List.inj_on_of_nodup_map (pilots server).ids there there' (same.trans same'.symm)
  refine ⟨server, (place_eq (ok.place inStep)).2.1 ▸ machine, task, there, rfl, ?_⟩
  rw [equal, key]
  exact keyOf_congr (ok.place inStep)

theorem allFailed_of_wait (books : Books pilots row (some job)) (here : job.stands = .wait)
    (found : taskStatus pilots job.doc = some .failed) (server : String) :
    allFailed (pilots server) := by
  obtain ⟨server', machine, task, there, failed, key⟩ := books.task_of_wait here found
  refine List.all_eq_true.mpr fun other member => decide_eq_true ?_
  by_contra alive
  obtain ⟨machine', -, key'⟩ := books.booked server other member alive
  rw [machine] at machine'
  obtain rfl := Option.some.inj machine'
  have equal := List.inj_on_of_nodup_map (pilots server').keys member there (key'.trans key.symm)
  rw [equal] at alive
  exact alive failed

theorem site_of_wait (books : Books pilots row (some job)) (here : job.stands = .wait)
    (found : taskStatus pilots job.doc = some .success) : ∃ server host,
      (row.seen .job).virtualMachine = some server ∧ (row.seen .job).hostname = some host ∧
        host ∈ (pilots server).sites := by
  obtain ⟨server, machine, task, there, success, -⟩ := books.task_of_wait here found
  have alive : task.status ≠ .failed := by
    rw [success]
    exact nofun
  obtain ⟨-, named, -⟩ := books.booked server task there alive
  exact ⟨server, task.host, machine, named, (pilots server).created task there success⟩

/-- **Pilot is asked to create the site.** -/
theorem asked {task : String} {server host : String} {pilot : Pilot}
    (books : Books pilots row (some job)) (here : job.stands = .request)
    (machine : job.doc.virtualMachine = some server) (named : job.doc.hostname = some host)
    (done : (pilots server).createSite task (keyOf job.doc) host = some pilot) :
    Books (Function.update pilots server pilot) row (some ⟨.answered task, job.doc⟩) := by
  have ok := books.running job rfl
  have inStep : job.stands.isInStep := by
    rw [here]
    rfl
  obtain ⟨names, sites, before, new⟩ := Pilot.createSite_eq_some done
  have grows : Grows pilots (Function.update pilots server pilot) :=
    grows_update (fun task there => ⟨task, before task there, rfl, rfl⟩) fun _ there => sites ▸ there
  refine ⟨?_, books.seen.grow grows, books.committed.grow grows, books.grows, ?_, ?_, ?_⟩
  · intro other created there alive
    by_cases same : other = server
    · subst same
      rw [Function.update_self] at there
      obtain old | ⟨host_, key⟩ := new created there
      · exact books.booked other created old alive
      · obtain ⟨-, machine', named', -⟩ := place_eq (ok.place inStep)
        exact ⟨machine' ▸ machine, host_ ▸ named' ▸ named, key.trans (keyOf_congr (ok.place inStep))⟩
    · rw [Function.update_of_ne same] at there
      exact books.booked other created there alive
  · exact (books.opens_inStep (fun advanced => by rw [here]; exact nofun)).imp_right Or.inl
  · rintro next running
    obtain rfl := Option.some.inj running
    refine ⟨fun _ => ok.place inStep, fun _ => ok.created inStep,
      fun _ => (ok.sound inStep).grow grows, fun _ => ok.fresh (by rw [here]; rfl), ?_, nofun, nofun⟩
    rintro id same
    obtain rfl := At.answered.inj same
    refine ⟨server, machine, ?_⟩
    rw [Function.update_self]
    exact names
  · intro atHead
    exact nomatch atHead _ rfl

/-- The job moves on and nothing is written. -/
theorem moves {next : At} (books : Books pilots row (some job)) (inStep : job.stands.isInStep)
    (stands : next ≠ .load)
    (ok : JobOk pilots row.committed (row.seen .job) job →
      JobOk pilots row.committed (row.seen .job) ⟨next, job.doc⟩) :
    Books pilots row (some ⟨next, job.doc⟩) := by
  refine ⟨books.booked, books.seen, books.committed, books.grows, ?_, ?_,
    fun atHead => absurd (atHead _ rfl) stands⟩
  · refine (books.opens_inStep fun advanced finish => ?_).imp_right Or.inl
    rw [finish] at inStep
    cases inStep
  · rintro here running
    obtain rfl := Option.some.inj running
    exact ok (books.running job rfl)

/-- The lock is taken and nothing written: an error is noted. -/
theorem notes (books : Books pilots row (some job)) (inStep : job.stands.isInStep)
    (got : row.lock .job = some after) : Books pilots after (some ⟨.finish false, job.doc⟩) :=
  books.writeInPlace inStep got rfl books.seen (fun created => created) (.outside rfl) nofun

/-- **A commit of the job**: what it sees is committed. -/
theorem commits {next : Option At} (books : Books pilots row (some job))
    (ok : ∀ stands, next = some stands →
      JobOk pilots (row.seen .job) (row.seen .job) ⟨stands, job.doc⟩) :
    Books pilots (row.commit .job) (next.map fun next => ⟨next, job.doc⟩) := by
  refine ⟨?_, ?_, ?_, ?_, Or.inl ?_, ?_, fun _ _ => RowLock.not_held_commit⟩
  · rw [RowLock.seen_commit]
    exact books.booked
  · rw [RowLock.seen_commit]
    exact books.seen
  · rw [RowLock.committed_commit_eq_seen]
    exact books.seen
  · rw [RowLock.committed_commit_eq_seen, RowLock.seen_commit]
    exact id
  · rw [RowLock.committed_commit_eq_seen, RowLock.seen_commit]
  · intro here running
    obtain ⟨stands, same, rfl⟩ := Option.map_eq_some_iff.mp running
    rw [RowLock.committed_commit_eq_seen, RowLock.seen_commit]
    exact ok stands same

/-- **The end of a job that dies**: what it has not committed is gone. -/
theorem dies (books : Books pilots row left)
    (kept : row.committed.virtualMachine = none →
      ∀ server ∈ (row.seen .job).virtualMachine, allFailed (pilots server)) :
    Books pilots (row.release .job) none := by
  refine ⟨?_, ?_, ?_, ?_, Or.inl ?_, fun _ running => absurd running (Option.some_ne_none _).symm,
    fun _ _ => RowLock.not_held_release⟩
  · rw [RowLock.seen_release]
    exact books.booked_committed kept
  · rw [RowLock.seen_release]
    exact books.committed
  · rw [RowLock.committed_release]
    exact books.committed
  · rw [RowLock.seen_release, RowLock.committed_release]
    exact id
  · rw [RowLock.seen_release, RowLock.committed_release]

/-- **A step that fails**: what it has not committed is undone. -/
theorem fails (books : Books pilots row (some job))
    (kept : row.committed.virtualMachine = none →
      ∀ server ∈ (row.seen .job).virtualMachine, allFailed (pilots server))
    (written : (row.undo .job).write .job SuiteSite.failed = some after) :
    Books pilots after (some ⟨.finish false, job.doc⟩) := by
  have seen : after.seen .job = SuiteSite.failed row.committed := by
    rw [RowLock.seen_write written, RowLock.seen_undo]
  have committed : after.committed = row.committed := by
    rw [RowLock.committed_write written, RowLock.committed_undo]
  refine ⟨?_, ?_, ?_, ?_, Or.inl ?_, ?_, fun atHead => nomatch atHead _ rfl⟩
  · rw [seen]
    exact (books.booked_committed kept).congr rfl
  · rw [seen]
    refine books.committed.congr rfl (fun _ names => names) ?_ books.committed.idle
    rintro (created | status)
    · exact Or.inl created
    · cases status
  · rw [committed]
    exact books.committed
  · rw [seen, committed]
    exact id
  · rw [seen, committed]
    rfl
  · rintro here running
    obtain rfl := Option.some.inj running
    exact .outside rfl

/-- **The head of the loop**: the job has the record as it is committed. -/
theorem loads {locked : RowLock (Owner I) SuiteSite} (books : Books pilots row (some job))
    (atHead : job.stands = .load) (got : row.lock .job = some locked) :
    (∀ step, stepFor locked.latest.status = some step →
      Books pilots locked (some ⟨step, locked.latest⟩)) ∧ Books pilots (locked.release .job) none := by
  have free := books.free fun here running => Option.some.inj running ▸ atHead
  have unheld := RowLock.seen_of_not_held free
  have seen : locked.seen .job = row.committed := (RowLock.seen_write got).trans unheld
  have committed : locked.committed = row.committed := RowLock.committed_write got
  have latest : locked.latest = row.committed := by
    rw [← seen, RowLock.seen_of_held (RowLock.held_write got),
      RowLock.latest_of_held (RowLock.held_write got)]
  have booked : Booked pilots row.committed := by
    rw [← unheld]
    exact books.booked
  constructor
  · intro step found
    have stands : isCreating step = false ∧ step ≠ .load ∧
        (isConfiguring step → isCreated row.committed.status) := by
      rw [latest] at found
      obtain rfl | ⟨rfl, status⟩ | rfl := stepFor_eq_some found
      · exact ⟨rfl, nofun, nofun⟩
      · refine ⟨rfl, nofun, fun _ => ?_⟩
        obtain status | status := status <;> rw [status] <;> rfl
      · exact ⟨rfl, nofun, nofun⟩
    obtain ⟨uncreating, stands, configures⟩ := stands
    have notCreating {goal : Prop} (creating : isCreating step) : goal := by
      rw [uncreating] at creating
      cases creating
    refine ⟨?_, ?_, ?_, ?_, Or.inl ?_, ?_, fun atHead => absurd (atHead _ rfl) stands⟩
    · rw [seen]
      exact booked
    · rw [seen]
      exact books.committed
    · rw [committed]
      exact books.committed
    · rw [seen, committed]
      exact id
    · rw [seen, committed]
    · rintro here running
      obtain rfl := Option.some.inj running
      rw [seen, committed, latest]
      exact ⟨fun _ => rfl, fun _ => rfl, fun _ => books.committed, notCreating,
        fun id (here : step = .answered id) => notCreating (by rw [here]; rfl),
        fun here : step = .wait => notCreating (by rw [here]; rfl), configures⟩
  · refine ⟨?_, ?_, ?_, ?_, Or.inl ?_, fun _ running => absurd running (Option.some_ne_none _).symm,
      fun _ _ => RowLock.not_held_release⟩
    · rw [RowLock.seen_release, committed]
      exact booked
    · rw [RowLock.seen_release, committed]
      exact books.committed
    · rw [RowLock.committed_release, committed]
      exact books.committed
    · rw [RowLock.seen_release, RowLock.committed_release]
      exact id
    · rw [RowLock.seen_release, RowLock.committed_release]

theorem pilots_of_ask (asked : ask pilots job answer = some later)
    (other : ∀ task, answer ≠ .task task) : later = pilots := by
  delta ask at asked
  split at asked
  · obtain ⟨server, -, asked⟩ := Option.bind_eq_some_iff.mp asked
    obtain ⟨host, -, asked⟩ := Option.bind_eq_some_iff.mp asked
    split at asked
    · exact (Option.some.inj asked).symm
    · cases asked
  · next task _ => exact absurd rfl (other task)
  · split at asked
    · exact (Option.some.inj asked).symm
    · cases asked
  · split at asked
    · exact (Option.some.inj asked).symm
    · cases asked
  · split at asked
    · exact (Option.some.inj asked).symm
    · cases asked
  · exact (Option.some.inj asked).symm

theorem created_of_ask {task : String} (here : job.stands = .request)
    (asked : ask pilots job (.task task) = some later) : ∃ server host pilot,
      job.doc.virtualMachine = some server ∧ job.doc.hostname = some host ∧
      (pilots server).createSite task (keyOf job.doc) host = some pilot ∧
      later = Function.update pilots server pilot := by
  delta ask at asked
  rw [here] at asked
  obtain ⟨server, machine, asked⟩ := Option.bind_eq_some_iff.mp asked
  obtain ⟨host, named, asked⟩ := Option.bind_eq_some_iff.mp asked
  obtain ⟨pilot, done, rfl⟩ := Option.map_eq_some_iff.mp asked
  exact ⟨server, host, pilot, machine, named, done, rfl⟩

theorem grows_of_ask (asked : ask pilots job answer = some later) : Grows pilots later := by
  by_cases other : ∀ task, answer ≠ .task task
  · rw [pilots_of_ask asked other]
    exact .refl pilots
  · obtain ⟨task, rfl⟩ := not_forall_not.mp other
    by_cases here : job.stands = .request
    · obtain ⟨server, host, pilot, -, -, done, rfl⟩ := created_of_ask here asked
      obtain ⟨-, sites, before, -⟩ := Pilot.createSite_eq_some done
      exact grows_update (fun task there => ⟨task, before task there, rfl, rfl⟩)
        fun _ there => sites ▸ there
    · delta ask at asked
      split at asked
      · cases ‹Answer.task task = _›
      · exact absurd ‹_› here
      · cases ‹Answer.task task = _›
      · cases ‹Answer.task task = _›
      · cases ‹Answer.task task = _›
      · rw [Option.some.inj asked]
        exact .refl later

theorem listed_of_ask {there : Bool} (here : job.stands = .look)
    (asked : ask pilots job (.listed there) = some later) : ∃ server host,
      job.doc.virtualMachine = some server ∧ job.doc.hostname = some host ∧
        there = decide (host ∈ (pilots server).sites) := by
  delta ask at asked
  rw [here] at asked
  obtain ⟨server, machine, asked⟩ := Option.bind_eq_some_iff.mp asked
  obtain ⟨host, named, asked⟩ := Option.bind_eq_some_iff.mp asked
  split at asked
  · next same => exact ⟨server, host, machine, named, same⟩
  · cases asked

theorem status_of_ask {status : TaskStatus} (here : job.stands = .wait)
    (answers : (answer = .succeeded ∧ status = .success) ∨
      ∃ taken host, answer = .failed taken host ∧ status = .failed)
    (asked : ask pilots job answer = some later) : taskStatus pilots job.doc = some status := by
  delta ask at asked
  rw [here] at asked
  obtain ⟨rfl, rfl⟩ | ⟨taken, host, rfl, rfl⟩ := answers
  · dsimp only at asked
    split at asked
    · assumption
    · cases asked
  · dsimp only at asked
    split at asked
    · assumption
    · cases asked

theorem jobStep (books : Books pilots row (some job)) (asked : ask pilots job answer = some later)
    (kept : answer = .dies ∨ answer = .raises → row.committed.virtualMachine = none →
      ∀ server ∈ (row.seen .job).virtualMachine, allFailed (pilots server))
    (taken : job.step .job row answer = some (left, after)) : Books later after left := by
  have ok := books.running job rfl
  have still := pilots_of_ask asked
  have inStep_of {stands : At} (here : job.stands = stands) (inStep : stands.isInStep) :
      job.stands.isInStep := here ▸ inStep
  obtain ⟨effect, named, applied⟩ := Job.step_eq_some.mp taken
  cases Job.does_of_effect named with
  | loads here =>
    obtain rfl := still nofun
    obtain ⟨locked, got, ⟨step, found, rfl, rfl⟩ | ⟨-, rfl, rfl⟩⟩ := Effect.apply_loads applied
    · exact (books.loads here got).1 step found
    · exact (books.loads here got).2
  | standing server here =>
    obtain rfl := still nofun
    obtain ⟨rfl, rfl⟩ := Prod.mk.inj (Option.some.inj applied)
    have inStep := inStep_of here rfl
    exact books.moves inStep nofun fun ok => ok.goesOn inStep nofun nofun nofun nofun
  | place server host here unplaced =>
    obtain rfl := still nofun
    obtain ⟨rfl, written⟩ := Effect.apply_dbSet applied
    exact books.placed here unplaced written
  | noServer here =>
    obtain rfl := still nofun
    obtain ⟨rfl, got⟩ := Effect.apply_note applied
    exact books.notes (inStep_of here rfl) got
  | requested task here names =>
    obtain rfl := still nofun
    obtain ⟨rfl, rfl⟩ := Prod.mk.inj (Option.some.inj applied)
    have inStep := inStep_of here rfl
    have fresh := (ok.sound inStep).uncreated_of_task names
    exact books.moves inStep nofun fun ok => ok.goesOn inStep (fun _ => fresh) nofun nofun nofun
  | found here =>
    obtain ⟨server, host, machine, hostname, there⟩ := listed_of_ask here asked
    obtain rfl := still nofun
    obtain ⟨rfl, written⟩ := Effect.apply_dbSet applied
    have inStep := inStep_of here rfl
    obtain ⟨-, machine', hostname', -⟩ := place_eq (ok.place inStep)
    exact books.createdSite inStep (machine' ▸ machine) (hostname' ▸ hostname)
      (of_decide_eq_true there.symm) written
  | unfound here =>
    obtain ⟨server, host, machine, hostname, absent⟩ := listed_of_ask here asked
    obtain rfl := still nofun
    obtain ⟨rfl, rfl⟩ := Prod.mk.inj (Option.some.inj applied)
    have inStep := inStep_of here rfl
    have fresh := (ok.sound inStep).uncreated_of_absent machine hostname (of_decide_eq_false absent.symm)
    exact books.moves inStep nofun fun ok => ok.goesOn inStep (fun _ => fresh) nofun nofun nofun
  | answered task here =>
    obtain ⟨server, host, pilot, machine, hostname, done, rfl⟩ := created_of_ask here asked
    obtain ⟨rfl, rfl⟩ := Prod.mk.inj (Option.some.inj applied)
    exact books.asked here machine hostname done
  | conflict here =>
    obtain rfl := still nofun
    obtain ⟨rfl, rfl⟩ := Prod.mk.inj (Option.some.inj applied)
    exact books.moves (inStep_of here rfl) nofun fun _ => .outside rfl
  | creating task here =>
    obtain rfl := still nofun
    obtain ⟨rfl, written⟩ := Effect.apply_dbSet applied
    exact books.creating here written
  | checkpoint here =>
    obtain rfl := still nofun
    obtain ⟨rfl, rfl⟩ := Prod.mk.inj (Option.some.inj applied)
    have inStep := inStep_of here rfl
    refine books.commits fun stands same => ?_
    obtain rfl := Option.some.inj same
    exact ok.goesOn inStep (fun _ => ok.fresh (by rw [here]; rfl)) nofun (fun _ => rfl) nofun
  | running here =>
    obtain rfl := still nofun
    obtain ⟨rfl, rfl⟩ := Prod.mk.inj (Option.some.inj applied)
    exact books.moves (inStep_of here rfl) nofun fun _ => .outside rfl
  | created here =>
    have success := status_of_ask here (Or.inl ⟨rfl, rfl⟩) asked
    obtain rfl := still nofun
    obtain ⟨rfl, written⟩ := Effect.apply_dbSet applied
    obtain ⟨server, host, machine, hostname, there⟩ := books.site_of_wait here success
    exact books.createdSite (inStep_of here rfl) machine hostname there written
  | reroll host here =>
    have failed := status_of_ask here (Or.inr ⟨_, _, rfl, rfl⟩) asked
    obtain rfl := still nofun
    obtain ⟨rfl, written⟩ := Effect.apply_dbSet applied
    exact books.rerolled here (books.allFailed_of_wait here failed) written
  | gaveUp taken host here =>
    obtain rfl := still nofun
    obtain ⟨rfl, written⟩ := Effect.apply_fail applied
    refine books.fails (fun unplaced server machine => ?_) written
    obtain ⟨-, same, -⟩ := place_eq (ok.waits here)
    rw [← same, unplaced] at machine
    cases machine
  | configuring here =>
    obtain rfl := still nofun
    obtain ⟨rfl, written⟩ := Effect.apply_dbSet applied
    refine books.configured (by rw [here]; rfl) (fun _ => ⟨rfl, rfl, rfl⟩) (fun _ _ => rfl)
      (Or.inl ?_) written
    split <;> rfl
  | connects here | sends here =>
    obtain rfl := still nofun
    obtain ⟨rfl, rfl⟩ := Prod.mk.inj (Option.some.inj applied)
    have inStep := inStep_of here rfl
    exact books.moves inStep nofun fun ok =>
      ok.goesOn inStep nofun nofun nofun fun _ => ok.configures (by rw [here]; rfl)
  | configured here =>
    obtain rfl := still nofun
    obtain ⟨rfl, written⟩ := Effect.apply_dbSet applied
    exact books.configured (by rw [here]; rfl) (fun _ => ⟨rfl, rfl, rfl⟩) (fun _ made => made)
      (Or.inl rfl) written
  | keeps here =>
    obtain rfl := still nofun
    obtain ⟨rfl, rfl⟩ := Prod.mk.inj (Option.some.inj applied)
    have inStep := inStep_of here rfl
    refine books.commits fun stands same => ?_
    obtain rfl := Option.some.inj same
    exact ok.goesOn inStep nofun nofun nofun fun _ => ok.configures (by rw [here]; rfl)
  | activates here =>
    obtain rfl := still nofun
    obtain ⟨rfl, written⟩ := Effect.apply_dbSet applied
    exact books.configured (by rw [here]; rfl) (fun _ => ⟨rfl, rfl, rfl⟩) (fun _ _ => rfl)
      (Or.inr rfl) written
  | followsUp | again =>
    obtain rfl := still nofun
    obtain ⟨rfl, rfl⟩ := Prod.mk.inj (Option.some.inj applied)
    refine books.commits fun stands same => ?_
    obtain rfl := Option.some.inj same
    exact .outside rfl
  | ends =>
    obtain rfl := still nofun
    obtain ⟨rfl, rfl⟩ := Prod.mk.inj (Option.some.inj applied)
    exact books.commits fun stands same => nomatch same
  | waits may =>
    obtain rfl := still nofun
    obtain ⟨rfl, got⟩ := Effect.apply_note applied
    exact books.notes (isInStep_of_mayWait may) got
  | raises =>
    obtain rfl := still nofun
    obtain ⟨rfl, written⟩ := Effect.apply_fail applied
    exact books.fails (kept (Or.inr rfl)) written
  | dies =>
    obtain rfl := still nofun
    obtain ⟨rfl, rfl⟩ := Prod.mk.inj (Option.some.inj applied)
    exact books.dies (kept (Or.inl rfl))

end Books

/-! ## Every run -/

theorem inv_initial {sites : String → List String} (inserted : Inserted site) :
    Inv (State.initial site sites : State I) := by
  have sound : Sound (State.initial site sites : State I).pilots site := by
    refine ⟨fun id names => ?_, ?_, fun _ => inserted.task⟩
    · rw [inserted.task] at names
      cases names
    · rintro (made | status)
      · exact (Bool.false_ne_true (inserted.created.symm.trans made)).elim
      · rw [inserted.pending] at status
        cases status
  refine ⟨⟨?_, sound, sound, fun made => made, Or.inl rfl,
    fun _ running => absurd running (Option.some_ne_none _).symm, ?_⟩, ?_,
    fun _ _ called => absurd called (Option.some_ne_none _).symm⟩
  · exact booked_of_allFailed fun _ => rfl
  · exact fun _ _ held => nomatch held
  · exact fun _ _ held => nomatch held

variable {s there : State I} {action : Action I}

theorem retry_ne_job (id : I) : Owner.retry id ≠ .job := nofun

theorem Inv.jobStep {answer : Answer} (inv : Inv s) (keeps : keepsPlacement s (.job answer))
    (taken : step s (.job answer) = some there) : Inv there := by
  obtain ⟨job, running, taken⟩ := Option.bind_eq_some_iff.mp taken
  obtain ⟨pilots, asked, taken⟩ := Option.bind_eq_some_iff.mp taken
  obtain ⟨⟨left, after⟩, made, rfl⟩ := Option.map_eq_some_iff.mp taken
  have books := inv.books
  rw [running] at books
  have grows := Books.grows_of_ask asked
  have committed (stays : s.row.committed.siteCreated = true) : after.committed.siteCreated = true := by
    obtain same | rfl := Job.step_committed made
    · rw [same]
      exact stays
    · rw [RowLock.committed_commit_eq_seen]
      exact books.grows stays
  refine ⟨books.jobStep asked keeps made, fun id version held => ?_,
    fun id retry called open_ doc => committed (inv.retries id retry called open_ doc)⟩
  have before := (Job.step_held_other (retry_ne_job id) made).mp held
  obtain ⟨sound, same, created⟩ := inv.held id version before
  have unheld : s.row.seen .job = s.row.committed :=
    RowLock.seen_of_not_held fun _ mine => by
      rw [before] at mine
      exact retry_ne_job id (Prod.mk.inj (Option.some.inj mine)).1
  have still : after.committed = s.row.committed := by
    obtain same | rfl := Job.step_committed made
    · exact same
    · rw [RowLock.committed_commit_eq_seen, unheld]
  rw [still]
  exact ⟨sound.grow grows, same, created⟩

theorem Sound.resumed {doc : SuiteSite} (sound : Sound pilots site)
    (known : doc.siteCreated = true → site.siteCreated = true) :
    Sound pilots (SuiteSite.resumed doc site) := by
  refine sound.congr rfl (fun _ names => nomatch names) ?_ fun _ => rfl
  rintro (created | status)
  · exact Or.inl created
  · refine Or.inl (known ?_)
    by_contra unmade
    have pending : doc.resumeStatus = .pending := by
      unfold SuiteSite.resumeStatus
      rw [Bool.not_eq_true _ |>.mp unmade]
      rfl
    unfold SuiteSite.resumed at status
    rw [pending] at status
    cases status

theorem Books.of_seen (books : Books pilots row left) (seen : after.seen .job = row.seen .job)
    (committed : after.committed = row.committed)
    (free : ∀ version, after.held = some (.job, version) → row.held = some (.job, version)) :
    Books pilots after left := by
  refine ⟨?_, ?_, ?_, ?_, ?_, ?_, fun atHead version held => ?_⟩
  · rw [seen]
    exact books.booked
  · rw [seen]
    exact books.seen
  · rw [committed]
    exact books.committed
  · rw [seen, committed]
    exact books.grows
  · rw [seen, committed]
    exact books.opens
  · rw [seen, committed]
    exact books.running
  · exact books.free atHead version (free version held)

theorem Books.of_commit (books : Books pilots row left)
    (unheld : ∀ version, row.held ≠ some (.job, version)) (sound : Sound pilots after.committed)
    (same : place after.committed = place row.committed)
    (created : after.committed.siteCreated = row.committed.siteCreated)
    (free : ∀ version, after.held ≠ some (.job, version)) : Books pilots after left := by
  have before := RowLock.seen_of_not_held unheld
  have seen := RowLock.seen_of_not_held free
  refine ⟨?_, ?_, sound, ?_, Or.inl ?_, fun job running => ?_, fun _ => free⟩
  · rw [seen]
    refine Booked.congr ?_ same
    rw [← before]
    exact books.booked
  · rw [seen]
    exact sound
  · rw [seen]
    exact fun made => made
  · rw [seen]
  · have ok := books.running job running
    rw [before] at ok
    rw [seen]
    exact ⟨fun inStep => (ok.place inStep).trans same.symm,
      fun inStep => (ok.created inStep).trans created.symm, ok.sound, ok.fresh, ok.answered,
      fun _ => rfl, ok.configures⟩

theorem Inv.retryWriteStep {id : I} (inv : Inv s) (taken : step s (.retryWrite id) = some there) :
    Inv there := by
  obtain ⟨retry, called, taken⟩ := Option.bind_eq_some_iff.mp taken
  obtain ⟨⟨done, after⟩, made, rfl⟩ := Option.map_eq_some_iff.mp taken
  have undone : retry.isDone = false := by
    unfold Retry.write at made
    split at made
    · cases made
    · next undone => exact Bool.not_eq_true _ ▸ undone
  have isDone : done.isDone = true := by
    unfold Retry.write at made
    rw [undone, if_neg nofun] at made
    split at made
    · obtain ⟨written, -, pair⟩ := Option.map_eq_some_iff.mp made
      rw [← (Prod.mk.inj pair).1]
    · rw [← (Prod.mk.inj (Option.some.inj made)).1]
  have retries (committed : after.committed = s.row.committed) (other : I) (call : Retry)
      (open_ : Function.update s.retries id (some done) other = some call) (early : call.isDone = false)
      (doc : call.doc.siteCreated = true) : after.committed.siteCreated = true := by
    rw [committed]
    by_cases same : other = id
    · subst same
      rw [Function.update_self] at open_
      obtain rfl := Option.some.inj open_
      rw [isDone] at early
      cases early
    · rw [Function.update_of_ne same] at open_
      exact inv.retries other call open_ early doc
  obtain ⟨-, written⟩ | ⟨-, rfl⟩ := Retry.write_eq_some made
  · have committed := RowLock.committed_write written
    have held := RowLock.held_write written
    obtain ⟨allowed, -⟩ := RowLock.write_eq_some.mp written
    have latest : Sound s.pilots s.row.latest ∧ place s.row.latest = place s.row.committed ∧
        s.row.latest.siteCreated = s.row.committed.siteCreated := by
      obtain same | mine := RowLock.latest_of_mayLock allowed
      · rw [same]
        exact ⟨inv.books.committed, rfl, rfl⟩
      · exact inv.held id _ mine
    have known := inv.retries id retry called undone
    refine ⟨?_, fun other version there => ?_, retries committed⟩
    · refine inv.books.of_seen (RowLock.seen_write_other (retry_ne_job id).symm written) committed ?_
      intro version mine
      have mine : after.held = some (.job, version) := mine
      rw [held] at mine
      exact absurd (Prod.mk.inj (Option.some.inj mine)).1 (retry_ne_job id)
    · rw [held] at there
      obtain ⟨-, rfl⟩ := Prod.mk.inj (Option.some.inj there)
      rw [committed]
      refine ⟨latest.1.resumed fun doc => ?_, latest.2.1, latest.2.2⟩
      rw [latest.2.2]
      exact known doc
  · exact ⟨inv.books, inv.held, retries rfl⟩

theorem retry_of_ended {id other : I} {call : Retry}
    (open_ : (s.setRetry id none).retries other = some call) : s.retries other = some call := by
  have open_ : Function.update s.retries id none other = some call := open_
  by_cases same : other = id
  · subst same
    rw [Function.update_self] at open_
    cases open_
  · rw [Function.update_of_ne same] at open_
    exact open_

theorem Inv.retryEnds {id : I} (inv : Inv s)
    (freed : after.held = if s.row.isHeldBy (.retry id) then none else s.row.held)
    (made : after.committed = s.row.committed ∨ after.committed = s.row.seen (.retry id)) :
    Inv { s.setRetry id none with row := after } := by
  have version : Sound s.pilots after.committed ∧ place after.committed = place s.row.committed ∧
      after.committed.siteCreated = s.row.committed.siteCreated := by
    obtain same | same := made
    · rw [same]
      exact ⟨inv.books.committed, rfl, rfl⟩
    · by_cases mine : s.row.isHeldBy (.retry id)
      · obtain ⟨version, held⟩ := RowLock.isHeldBy_iff.mp mine
        rw [same, RowLock.seen_of_held held]
        exact inv.held id version held
      · rw [same, RowLock.seen, if_neg mine]
        exact ⟨inv.books.committed, rfl, rfl⟩
  obtain ⟨sound, same, created⟩ := version
  refine ⟨?_, fun other version held => ?_, fun other call open_ early doc => ?_⟩
  · by_cases mine : s.row.isHeldBy (.retry id)
    · obtain ⟨version, held⟩ := RowLock.isHeldBy_iff.mp mine
      refine inv.books.of_commit (fun other theirs => ?_) sound same created fun other theirs => ?_
      · rw [held] at theirs
        exact retry_ne_job id (Prod.mk.inj (Option.some.inj theirs)).1
      · have theirs : after.held = some (.job, other) := theirs
        rw [freed, if_pos mine] at theirs
        cases theirs
    · rw [if_neg mine] at freed
      have still : after.committed = s.row.committed := by
        refine made.elim (fun same => same) fun same => ?_
        rw [same, RowLock.seen, if_neg mine]
      have equal : after = s.row := by
        obtain ⟨committed, held⟩ := after
        obtain rfl : committed = s.row.committed := still
        obtain rfl : held = s.row.held := freed
        rfl
      rw [equal]
      exact inv.books
  · have held : after.held = some (.retry other, version) := held
    rw [freed] at held
    split at held
    · cases held
    · obtain ⟨sound', same', created'⟩ := inv.held other version held
      exact ⟨sound', same'.trans same.symm, created'.trans created.symm⟩
  · exact created.trans (inv.retries other call (retry_of_ended open_) early doc)

theorem inv_step (inv : Inv s) (keeps : keepsPlacement s action) (taken : step s action = some there) :
    Inv there := by
  cases action with
  | start =>
    simp only [step] at taken
    split at taken
    · next absent =>
      obtain rfl := Option.some.inj taken
      have idle : s.job = none := Option.isNone_iff_eq_none.mp absent
      have books := inv.books
      rw [idle] at books
      have free := books.free fun here running => absurd running (Option.some_ne_none _).symm
      refine ⟨⟨books.booked, books.seen, books.committed, books.grows, ?_, fun job running => ?_,
        fun _ => free⟩, inv.held, inv.retries⟩
      · refine books.opens.imp_right (Or.imp_right ?_)
        rintro ⟨⟨here, advanced, running, -⟩, -⟩
        cases running
      · obtain rfl := Option.some.inj running
        exact .outside rfl
    · cases taken
  | job answer => exact inv.jobStep keeps taken
  | pilot server id succeeds =>
    obtain rfl := Option.some.inj taken
    have grows := grows_ends s.pilots server id succeeds
    refine ⟨inv.books.ends server id succeeds, fun other version held => ?_, inv.retries⟩
    obtain ⟨sound, rest⟩ := inv.held other version held
    exact ⟨sound.grow grows, rest⟩
  | retry id =>
    simp only [step] at taken
    split at taken
    · obtain rfl := Option.some.inj taken
      refine ⟨inv.books, inv.held, fun other call open_ early doc => ?_⟩
      have open_ : Function.update s.retries id _ other = some call := open_
      by_cases same : other = id
      · subst same
        rw [Function.update_self] at open_
        obtain rfl := Option.some.inj open_
        exact doc
      · rw [Function.update_of_ne same] at open_
        exact inv.retries other call open_ early doc
    · cases taken
  | retryWrite id => exact inv.retryWriteStep taken
  | retryCommit id =>
    obtain ⟨retry, -, taken⟩ := Option.bind_eq_some_iff.mp taken
    split at taken
    · obtain rfl := Option.some.inj taken
      exact inv.retryEnds RowLock.held_commit (Or.inr RowLock.committed_commit_eq_seen)
    · cases taken
  | retryAbort id =>
    obtain ⟨_, -, rfl⟩ := Option.map_eq_some_iff.mp taken
    exact inv.retryEnds RowLock.held_release (Or.inl RowLock.committed_release)

/-- **A site that Pilot created for the record is in its books.** In every run in which the worker
neither dies nor raises between a request that Pilot took and the commit of the place it was sent to:
whenever no job is running, a site that exists for this record is the one its committed server and
hostname name, so there is one at most; and a record that is Ready or Assigned names a site that
exists. -/
theorem created_site_is_booked {sites : String → List String} (inserted : Inserted site)
    (reached : Reaches step keepsPlacement (State.initial site sites : State I) s)
    (idle : s.job = none) :
    (∀ server, ∀ task ∈ (s.pilots server).tasks, task.status = .success →
      s.row.committed.virtualMachine = some server ∧ s.row.committed.hostname = some task.host) ∧
    (∀ first second, ∀ one ∈ (s.pilots first).tasks, ∀ two ∈ (s.pilots second).tasks,
      one.status = .success → two.status = .success → first = second ∧ one.host = two.host) ∧
    (s.row.committed.status = .ready ∨ s.row.committed.status = .assigned → ∃ server host,
      s.row.committed.virtualMachine = some server ∧ s.row.committed.hostname = some host ∧
        host ∈ (s.pilots server).sites) := by
  have inv : Inv s := reached.invariant Inv (inv_initial inserted) inv_step
  have books := inv.books
  rw [idle] at books
  have free := books.free fun here running => absurd running (Option.some_ne_none _).symm
  have booked (server : String) (task : PilotTask) (there : task ∈ (s.pilots server).tasks)
      (success : task.status = .success) : s.row.committed.virtualMachine = some server ∧
        s.row.committed.hostname = some task.host := by
    have named := books.booked server task there (by rw [success]; exact nofun)
    rw [RowLock.seen_of_not_held free] at named
    exact ⟨named.1, named.2.1⟩
  refine ⟨booked, fun first second one here two there made made' => ?_, fun status => ?_⟩
  · obtain ⟨machine, host⟩ := booked first one here made
    obtain ⟨machine', host'⟩ := booked second two there made'
    exact ⟨Option.some.inj (machine.symm.trans machine'), Option.some.inj (host.symm.trans host')⟩
  · refine books.committed.site (Or.inr ?_)
    obtain status | status := status <;> rw [status] <;> rfl

/-! ### Runs -/

instance decidableKeepsPlacement (s : State I) : ∀ action, Decidable (keepsPlacement s action)
  | .job answer => inferInstanceAs (Decidable (answer = .dies ∨ answer = .raises →
      s.row.committed.virtualMachine = none →
        ∀ server ∈ (s.row.seen .job).virtualMachine, allFailed (s.pilots server)))
  | .start | .pilot _ _ _ | .retry _ | .retryWrite _ | .retryCommit _ | .retryAbort _ => isTrue trivial

/-- A site for the pool that was inserted while no server had room. -/
def waiting : SuiteSite := ⟨"0199-mill", none, .pending, none, none, 0, none, false, false⟩

theorem inserted_waiting : Inserted waiting := ⟨rfl, rfl, rfl⟩

/-- A job up to Pilot's answer to its request. -/
def requests (server host task : String) : List (Action (Fin 1)) :=
  [.start, .job .goesOn, .job (.placed server host), .job (.listed false), .job (.task task)]

/-- The rest of it: the task succeeds, and the record is Ready. -/
def creates (server task : String) : List (Action (Fin 1)) :=
  [.job .goesOn, .job .goesOn, .pilot server task true, .job .succeeded, .job .goesOn, .job .goesOn]

/-- The servers between two jobs on which a site exists for the record. -/
def summary (s : State (Fin 1)) : Bool × Status × Option String × List Bool :=
  (s.job.isNone, s.row.committed.status, s.row.committed.virtualMachine,
    ["vm-1", "vm-2"].map fun server => (s.pilots server).tasks.any fun task => task.status = .success)

theorem created_site_is_booked_waiting : ∃ s : State (Fin 1),
    run step (State.initial waiting fun _ => [])
      (requests "vm-1" "suite-3a.example.net" "t1" ++ creates "vm-1" "t1") = some s ∧
    ∀ server, ∀ task ∈ (s.pilots server).tasks, task.status = .success →
      s.row.committed.virtualMachine = some server ∧ s.row.committed.hostname = some task.host := by
  have ends : (run step (State.initial waiting fun _ => [])
      (requests "vm-1" "suite-3a.example.net" "t1" ++ creates "vm-1" "t1")).map summary =
        some (true, .ready, some "vm-1", [true, false]) := by
    decide
  have meets : RunMeets step keepsPlacement (State.initial waiting fun _ => [] : State (Fin 1))
      (requests "vm-1" "suite-3a.example.net" "t1" ++ creates "vm-1" "t1") := by
    decide
  obtain ⟨s, done, found⟩ := Option.map_eq_some_iff.mp ends
  have idle : s.job = none := Option.isNone_iff_eq_none.mp (Prod.mk.inj found).1
  exact ⟨s, done, (created_site_is_booked inserted_waiting (reaches_of_run meets done) idle).1⟩

/-- The worker dies once Pilot has taken its request, and the next job places the site elsewhere. -/
def createdTwice : List (Action (Fin 1)) :=
  requests "vm-1" "suite-3a.example.net" "t1" ++ [Action.job .dies, .pilot "vm-1" "t1" true] ++
    requests "vm-2" "suite-4b.example.net" "t2" ++ creates "vm-2" "t2"

/-- **A site is lost from the books**: it exists on a server that the record does not name, beside the
one it does. -/
theorem created_site_is_lost : ∃ s : State (Fin 1),
    Reaches step anyStep (State.initial waiting fun _ => []) s ∧ s.job = none ∧
    s.row.committed.virtualMachine = some "vm-2" ∧
    (∃ task ∈ (s.pilots "vm-1").tasks, task.status = .success) ∧
    ∃ task ∈ (s.pilots "vm-2").tasks, task.status = .success := by
  have ends : (run step (State.initial waiting fun _ => []) createdTwice).map summary =
      some (true, .ready, some "vm-2", [true, true]) := by
    decide
  obtain ⟨s, done, found⟩ := Option.map_eq_some_iff.mp ends
  unfold summary at found
  simp only [Prod.mk.injEq, List.map_cons, List.map_nil, List.cons.injEq, List.any_eq_true,
    decide_eq_true_eq, Option.isNone_iff_eq_none] at found
  obtain ⟨idle, -, machine, lost, kept, -⟩ := found
  exact ⟨s, reaches_of_run (runMeets_of_forall fun _ _ _ => trivial) done, idle, machine, lost, kept⟩

end SuiteCloud.Hosting.Creation
