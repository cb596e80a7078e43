/-
**A rotated secret reaches the hosted site.**

A tenant, its one live Suite Site and the provision job that configures it, with any number of calls
of `rotate_secret`, a statement at a time. A call decides by the document of the site it loaded
whether to push the new secret, to have `configure` run again, or to leave it to a `configure` that
is still to come; the job sends the secret it read in its own transaction.

* `Meets` — the schedules that are right: what the job sent is still the secret when it commits
  `suite_configured`, and no call that read the site before that is left to commit after it; the
  flag is not taken back around the activation.
* `Carried` — the invariant: a configured site holds the secret, but for the one call that has the
  tenant locked.
* `rotated_secret_reaches_site` — **an Active site holds the tenant's secret** once no call is open.
* `rotation_missed` — a rotation while the site is configured leaves the site with the old secret.
-/

import SuiteCloud.Hosting.Sites
import SuiteCloud.Library.ReadView
import SuiteCloud.Library.Transition

set_option linter.unusedSectionVars false

namespace SuiteCloud.Hosting.Secrets

open SuiteCloud.Library
open SuiteCloud.Hosting.Claims (Status)
open SuiteCloud.Hosting.Sites

/-! ## The system -/

/-- The fields of a Suite Tenant a rotation reads and writes. -/
structure Tenant where
  secret : String
  /-- The timestamp, which every save moves on. -/
  modified : ℕ
  deriving DecidableEq

/-- Who writes the site. -/
inductive Owner (I : Type*)
  | job
  | rotation (id : I)
  deriving DecidableEq

/-- A provision job, what its transaction's plain reads see, and the secret of the tenant's document
in `configure_suite`. -/
structure Worker where
  job : Job
  view : ReadView Tenant
  secret : Option String

/-- A call of `rotate_secret`: the document of the site, the tenant's as it was loaded, and the new
secret. -/
structure Call where
  rotation : Rotation
  tenant : Tenant
  secret : String

/-- The two rows, the secret the site holds, the queue of provision jobs, and what is under way. -/
structure State (I : Type*) where
  row : RowLock (Owner I) SuiteSite
  tenant : RowLock I Tenant
  remote : Option String
  isQueued : Bool
  worker : Option Worker
  calls : I → Option Call

inductive Action (I : Type*)
  /-- `poll_pending_sites`. -/
  | poll
  | start
  /-- A plain read of the job's transaction. -/
  | read
  | job (answer : Answer)
  /-- `rotate_secret` loads the tenant and its live site. -/
  | rotate (id : I)
  /-- The save of the tenant. -/
  | save (id : I) (secret : String)
  /-- A statement of `push_secret_to_site`: whether the push returned, and whether the site got it
  where it did not. -/
  | push (id : I) (reached delivered : Bool)
  | commit (id : I)
  /-- The site cannot be reached at all: the call raises before it writes. -/
  | refuse (id : I)

variable {I : Type*} [DecidableEq I]

/-- A tenant with its site, and nothing under way. -/
def State.initial (site : SuiteSite) (tenant : Tenant) (remote : Option String) : State I :=
  ⟨.free site, .free tenant, remote, false, none, fun _ => none⟩

/-- A job of the same id that is running is left to it. -/
def State.enqueue (s : State I) : State I :=
  if s.worker.isSome then s else { s with isQueued := true }

def State.setCall (s : State I) (id : I) (call : Option Call) : State I :=
  { s with calls := Function.update s.calls id call }

@[simp] theorem setCall_calls_self (s : State I) (id : I) (call : Option Call) :
    (s.setCall id call).calls id = call := Function.update_self ..

theorem setCall_calls_of_ne (s : State I) {id other : I} (call : Option Call) (differ : other ≠ id) :
    (s.setCall id call).calls other = s.calls other := Function.update_of_ne differ ..

/-- What a statement of the job reads of the tenant; a commit ends the view. -/
def Worker.reads (worker : Worker) (tenant : Tenant) (answer : Answer) : Worker :=
  match worker.job.stands, answer with
  | .connect, .goesOn =>
      { worker with
        view := worker.view.read tenant, secret := some (worker.view.sees tenant).secret }
  | .checkpoint, .goesOn | .keep, .goesOn | .followUp, .goesOn | .finish _, .goesOn =>
      { worker with view := .unopened }
  | _, _ => worker

/-- What the site holds after a statement of the job. -/
def Worker.sends (worker : Worker) (remote : Option String) (answer : Answer) : Option String :=
  if worker.job.stands = .send ∧ answer = .goesOn then worker.secret else remote

/-- What the site holds after a statement of `push_secret_to_site`. -/
def Call.sends (call : Call) (remote : Option String) (delivered : Bool) : Option String :=
  if call.rotation.stands = .saved ∧ call.rotation.doc.status = .active ∧ delivered then
    some call.secret
  else remote

/-- The tenant is as the call has loaded it, but for what the call has written. -/
def Call.isCurrent (call : Call) (tenant : RowLock I Tenant) : Bool :=
  call.tenant.modified = tenant.committed.modified

/-- **One step of the system.** -/
def step (s : State I) : Action I → Option (State I)
  | .poll => if (stepFor s.row.committed.status).isSome then some s.enqueue else none
  | .start =>
      if s.isQueued ∧ s.worker.isNone then
        some { s with isQueued := false, worker := some ⟨.starts s.row.committed, .unopened, none⟩ }
      else none
  | .read => s.worker.map fun worker =>
      { s with worker := some { worker with view := worker.view.read s.tenant.committed } }
  | .job answer =>
      s.worker.bind fun worker => (worker.job.step .job s.row answer).map fun result =>
        { s with
          row := result.2
          worker := result.1.map fun job => { worker.reads s.tenant.committed answer with job := job }
          remote := worker.sends s.remote answer }
  | .rotate id =>
      if (s.calls id).isNone then
        some (s.setCall id (some ⟨⟨.loaded, s.row.committed⟩, s.tenant.committed, ""⟩))
      else none
  | .save id secret =>
      (s.calls id).bind fun call =>
        if call.rotation.stands = .loaded then
          -- The document's timestamp is checked against the row, under its lock.
          if call.isCurrent s.tenant then
            (s.tenant.write id fun row => ⟨secret, row.modified + 1⟩).map fun written =>
              { s.setCall id (some ⟨⟨.saved, call.rotation.doc⟩, call.tenant, secret⟩) with
                tenant := written }
          else if s.tenant.mayLock id then some (s.setCall id none)
          else none
        else none
  | .push id reached delivered =>
      (s.calls id).bind fun call =>
        (call.rotation.push (.rotation id) s.row reached).map fun result =>
          { s.setCall id (some { call with rotation := result.1 }) with
            row := result.2, remote := call.sends s.remote (reached || delivered) }
  | .commit id =>
      (s.calls id).bind fun call =>
        match call.rotation.stands with
        | .done requeues =>
            let ended :=
              { s.setCall id none with
                row := s.row.commit (.rotation id), tenant := s.tenant.commit id }
            some (if requeues then ended.enqueue else ended)
        | _ => none
  | .refuse id =>
      (s.calls id).bind fun call =>
        if call.rotation.stands = .loaded then some (s.setCall id none) else none

/-! ## The condition -/

/-- At the checkpoint of `configure`: the secret that was sent is still the tenant's, and no call that
read the site before is left to commit after. -/
def keepsSecret (s : State I) (worker : Worker) : Prop :=
  worker.secret = some s.tenant.committed.secret ∧
    ∀ id, ∀ call ∈ s.calls id, call.isCurrent s.tenant → call.rotation.doc.suiteConfigured = true

/-- **The schedules that are right.** -/
def Meets (s : State I) : Action I → Prop
  | .job answer => ∀ worker ∈ s.worker, answer = .goesOn →
      (worker.job.stands = .keep → keepsSecret s worker) ∧
        -- No call has taken the flag back since the checkpoint.
        (worker.job.stands = .activate → s.row.latest.suiteConfigured = true)
  | .push id _ _ => ∀ call ∈ s.calls id, call.rotation.stands = .clear →
      -- A call that takes the flag of an Active site back has seen that it is Active.
      call.rotation.doc.suiteConfigured = true → call.rotation.doc.status ≠ .active →
        s.row.latest.status ≠ .active
  | _ => True

/-- A site from Assigned on, with nothing under way: it is configured if it is Active, and holds the
secret if it is configured. -/
structure Starts (site : SuiteSite) (tenant : Tenant) (remote : Option String) : Prop where
  active : site.status = .active → site.suiteConfigured = true
  configured : site.suiteConfigured = true → remote = some tenant.secret

/-! ## The invariant -/

/-- What holds of an open call. -/
structure CallOk (row : RowLock (Owner I) SuiteSite) (tenant : RowLock I Tenant)
    (remote : Option String) (id : I) (call : Call) : Prop where
  older : call.tenant.modified ≤ tenant.committed.modified
  active : call.rotation.stands = .loaded ∨ call.rotation.stands = .saved ∨
    call.rotation.stands = .clear → call.rotation.doc.status = .active →
      call.rotation.doc.suiteConfigured = true
  /-- Until the call has taken the flag back, its document has the flag as it is committed. -/
  same : call.isCurrent tenant → call.rotation.stands ≠ .unassign →
    call.rotation.stands ≠ .done true →
      call.rotation.doc.suiteConfigured = row.committed.suiteConfigured
  /-- The call that has saved the tenant has it locked. -/
  saved : call.rotation.stands ≠ .loaded → call.isCurrent tenant ∧
    tenant.held = some (id, ⟨call.secret, tenant.committed.modified + 1⟩)
  cleared : call.rotation.stands = .unassign → ∃ version, row.held = some (.rotation id, version) ∧
    version.suiteConfigured = false ∧
      (call.rotation.doc.status = .active ∨ version.status ≠ .active)
  taken : call.rotation.stands = .done true → ∃ version, row.held = some (.rotation id, version) ∧
    version.suiteConfigured = false ∧ version.status ≠ .active
  pushed : call.rotation.stands = .done false → row.committed.suiteConfigured = true →
    remote = some call.secret

/-- The statements of `configure` at which the job has the site locked and unconfigured. -/
def isInside : At → Bool
  | .connect | .send | .sent | .keep => true
  | _ => false

/-- The secret is sent, and the flag not yet committed. -/
def isSent : At → Bool
  | .sent | .keep => true
  | _ => false

theorem isInside_of_isSent {stands : At} (sent : isSent stands) : isInside stands := by
  unfold isSent at sent
  split at sent
  · rfl
  · rfl
  · cases sent

/-- What holds of the running job. -/
structure WorkerOk (row : RowLock (Owner I) SuiteSite) (remote : Option String) (worker : Worker) :
    Prop where
  inside : isInside worker.job.stands → (∃ version, row.held = some (.job, version)) ∧
    row.committed.suiteConfigured = false
  configure : worker.job.stands = .configure → (∃ version, row.held = some (.job, version)) ∧
    worker.job.doc.suiteConfigured = row.committed.suiteConfigured
  sent : isSent worker.job.stands → remote = worker.secret

/-- **The secret is carried to the site.** -/
structure Carried (s : State I) : Prop where
  active : s.row.committed.status = .active → s.row.committed.suiteConfigured = true
  calls : ∀ id call, s.calls id = some call → CallOk s.row s.tenant s.remote id call
  tenantHeld : ∀ id version, s.tenant.held = some (id, version) →
    ∃ call, s.calls id = some call ∧ call.rotation.stands ≠ .loaded
  rowHeld : ∀ id version, s.row.held = some (.rotation id, version) →
    ∃ call, s.calls id = some call ∧
      (call.rotation.stands = .unassign ∨ call.rotation.stands = .done true)
  /-- The job's version has the flag as it is committed, but for what it is about to commit. -/
  jobHeld : ∀ version, s.row.held = some (.job, version) →
    (version.status = .active → version.suiteConfigured = true) ∧
      ((∃ worker, s.worker = some worker ∧ worker.job.stands = .keep) ∨
        version.suiteConfigured = s.row.committed.suiteConfigured)
  worker : ∀ worker, s.worker = some worker → WorkerOk s.row s.remote worker
  /-- **A configured site holds the secret**, but for a call that has the tenant locked. -/
  settled : s.tenant.held = none → s.row.committed.suiteConfigured = true →
    s.remote = some s.tenant.committed.secret

variable {row after : RowLock (Owner I) SuiteSite} {tenant later : RowLock I Tenant}
  {remote sent : Option String} {id other : I} {call : Call}

theorem isCurrent_iff : call.isCurrent tenant ↔ call.tenant.modified = tenant.committed.modified :=
  decide_eq_true_iff

namespace CallOk

/-- A call that has only loaded is not affected by the others, as long as the flag is as it was or
its document of the tenant is out of date. -/
theorem of_loaded (holds : CallOk row tenant remote id call) (loaded : call.rotation.stands = .loaded)
    (grows : tenant.committed.modified ≤ later.committed.modified)
    (same : call.isCurrent later → call.isCurrent tenant ∧
      after.committed.suiteConfigured = row.committed.suiteConfigured) :
    CallOk after later sent id call where
  older := holds.older.trans grows
  active := holds.active
  same := fun current first second => by
    obtain ⟨before, flag⟩ := same current
    rw [flag]
    exact holds.same before first second
  saved := fun moved => absurd loaded moved
  cleared := fun there => nomatch loaded.symm.trans there
  taken := fun there => nomatch loaded.symm.trans there
  pushed := fun there => nomatch loaded.symm.trans there

theorem congr (holds : CallOk row tenant remote id call)
    (flag : after.committed.suiteConfigured = row.committed.suiteConfigured)
    (held : ∀ version, row.held = some (.rotation id, version) →
      after.held = some (.rotation id, version))
    (still : row.committed.suiteConfigured = true → sent = remote) :
    CallOk after tenant sent id call where
  older := holds.older
  active := holds.active
  same := by
    rw [flag]
    exact holds.same
  saved := holds.saved
  cleared := fun there => by
    obtain ⟨version, mine, rest⟩ := holds.cleared there
    exact ⟨version, held version mine, rest⟩
  taken := fun there => by
    obtain ⟨version, mine, rest⟩ := holds.taken there
    exact ⟨version, held version mine, rest⟩
  pushed := fun there configured => by
    rw [flag] at configured
    rw [still configured]
    exact holds.pushed there configured

end CallOk

theorem WorkerOk.congr {worker : Worker} (holds : WorkerOk row remote worker)
    (foreign : ∀ version, row.held ≠ some (.job, version)) : WorkerOk after sent worker where
  inside := fun inside => by
    obtain ⟨⟨version, held⟩, -⟩ := holds.inside inside
    exact absurd held (foreign version)
  configure := fun here => by
    obtain ⟨⟨version, held⟩, -⟩ := holds.configure here
    exact absurd held (foreign version)
  sent := fun here => by
    obtain ⟨⟨version, held⟩, -⟩ := holds.inside (isInside_of_isSent here)
    exact absurd held (foreign version)

/-- A job that is at none of these statements. -/
theorem WorkerOk.outside {worker : Worker} (out : isInside worker.job.stands = false)
    (here : worker.job.stands ≠ .configure) : WorkerOk row remote worker where
  inside := fun inside => by
    rw [out] at inside
    cases inside
  configure := fun there => absurd there here
  sent := fun there => by
    rw [isInside_of_isSent there] at out
    cases out

variable {s there : State I}

theorem Carried.loaded_of_ne (carried : Carried s) {first : Call} (here : s.calls id = some first)
    (past : first.rotation.stands ≠ .loaded) {second : Call} (open_ : s.calls other = some second)
    (differ : other ≠ id) : second.rotation.stands = .loaded := by
  by_contra moved
  obtain ⟨-, mine⟩ := (carried.calls id first here).saved past
  obtain ⟨-, theirs⟩ := (carried.calls other second open_).saved moved
  rw [mine] at theirs
  exact differ (Prod.mk.inj (Option.some.inj theirs)).1.symm

/-- What a version the job may act on is like. -/
theorem Carried.latest (carried : Carried s) (allowed : s.row.mayLock .job) :
    (s.row.latest.status = .active → s.row.latest.suiteConfigured = true) ∧
      ((∃ worker, s.worker = some worker ∧ worker.job.stands = .keep) ∨
        s.row.latest.suiteConfigured = s.row.committed.suiteConfigured) := by
  obtain committed | held := RowLock.latest_of_mayLock allowed
  · rw [committed]
    exact ⟨carried.active, Or.inr rfl⟩
  · exact carried.jobHeld _ held

/-! ## The job -/

variable {worker : Worker} {left : Option Job} {answer : Answer}

theorem Carried.flag_jobStep (carried : Carried s) (running : s.worker = some worker)
    (early : worker.job.stands ≠ .keep)
    (taken : worker.job.step .job s.row answer = some (left, after)) :
    after.committed.suiteConfigured = s.row.committed.suiteConfigured := by
  obtain same | rfl := Job.step_committed taken
  · rw [same]
  · refine RowLock.committed_commit_of
      (fun site : SuiteSite => site.suiteConfigured = s.row.committed.suiteConfigured) rfl ?_
    intro version held
    obtain ⟨other, there, keeps⟩ | same := (carried.jobHeld version held).2
    · rw [running] at there
      exact absurd (Option.some.inj there ▸ keeps) early
    · exact same

theorem Carried.active_jobStep (carried : Carried s)
    (taken : worker.job.step .job s.row answer = some (left, after))
    (active : after.committed.status = .active) : after.committed.suiteConfigured = true := by
  obtain same | rfl := Job.step_committed taken
  · rw [same] at active ⊢
    exact carried.active active
  · revert active
    exact RowLock.committed_commit_of
      (fun site => site.status = .active → site.suiteConfigured = true) carried.active
      fun version held => (carried.jobHeld version held).1

theorem Carried.write_jobStep (carried : Carried s) (running : s.worker = some worker)
    (meets : Meets s (.job answer)) {change : SuiteSite → SuiteSite} {next : At}
    (does : worker.job.Does answer (.dbSet change next)) (allowed : s.row.mayLock .job) :
    ((change s.row.latest).status = .active → (change s.row.latest).suiteConfigured = true) ∧
      (next = .keep ∨ (change s.row.latest).suiteConfigured = s.row.committed.suiteConfigured) := by
  have before := carried.latest allowed
  have early (stands : worker.job.stands ≠ .keep) :
      s.row.latest.suiteConfigured = s.row.committed.suiteConfigured := by
    obtain ⟨other, there, keeps⟩ | same := before.2
    · rw [running] at there
      exact absurd (Option.some.inj there ▸ keeps) stands
    · exact same
  cases does with
  | place _ _ here => exact ⟨before.1, Or.inr (early (by rw [here]; exact nofun))⟩
  | found here | created here =>
    refine ⟨fun active => ?_, Or.inr (early (by rw [here]; exact nofun))⟩
    unfold SuiteSite.created at active
    dsimp only at active
    split at active <;> cases active
  | creating _ here | reroll _ here | configuring here =>
    exact ⟨nofun, Or.inr (early (by rw [here]; exact nofun))⟩
  | configured => exact ⟨fun _ => rfl, Or.inl rfl⟩
  | activates here =>
    obtain ⟨-, flag⟩ := meets worker running rfl
    exact ⟨fun _ => flag here, Or.inr (early (by rw [here]; exact nofun))⟩

theorem Carried.held_jobStep (carried : Carried s) (running : s.worker = some worker)
    (meets : Meets s (.job answer))
    (taken : worker.job.step .job s.row answer = some (left, after)) {version : SuiteSite}
    (held : after.held = some (.job, version)) :
    (version.status = .active → version.suiteConfigured = true) ∧
      ((∃ job, left = some job ∧ job.stands = .keep) ∨
        version.suiteConfigured = s.row.committed.suiteConfigured) := by
  obtain ⟨effect, named, applied⟩ := Job.step_eq_some.mp taken
  have does := Job.does_of_effect named
  have unkept (stands : worker.job.stands ≠ .keep) {version : SuiteSite}
      (before : s.row.held = some (.job, version)) :
      (version.status = .active → version.suiteConfigured = true) ∧
        version.suiteConfigured = s.row.committed.suiteConfigured := by
    obtain ⟨active, ⟨other, there, keeps⟩ | same⟩ := carried.jobHeld version before
    · rw [running] at there
      exact absurd (Option.some.inj there ▸ keeps) stands
    · exact ⟨active, same⟩
  have read (stands : worker.job.stands ≠ .keep) {locked : RowLock (Owner I) SuiteSite}
      (got : s.row.lock .job = some locked) {version : SuiteSite}
      (held : locked.held = some (.job, version)) :
      (version.status = .active → version.suiteConfigured = true) ∧
        version.suiteConfigured = s.row.committed.suiteConfigured := by
    obtain ⟨allowed, rfl⟩ := RowLock.write_eq_some.mp got
    obtain ⟨-, rfl⟩ := Prod.mk.inj (Option.some.inj held)
    obtain committed | own := RowLock.latest_of_mayLock allowed
    · rw [id, committed]
      exact ⟨carried.active, rfl⟩
    · exact unkept stands own
  cases effect with
  | loads =>
    obtain ⟨locked, got, ends⟩ := Effect.apply_loads applied
    have stands : worker.job.stands ≠ .keep := by
      cases does with
      | loads here =>
        rw [here]
        exact nofun
    obtain ⟨step, -, -, rfl⟩ | ⟨-, -, rfl⟩ := ends
    · exact (read stands got held).imp_right Or.inr
    · exact absurd held RowLock.not_held_release
  | goTo next =>
    obtain ⟨rfl, rfl⟩ := Prod.mk.inj (Option.some.inj applied)
    have stands : worker.job.stands ≠ .keep := by
      intro keeps
      cases does <;> simp_all only [reduceCtorEq]
    exact (unkept stands held).imp_right Or.inr
  | dbSet change next =>
    obtain ⟨rfl, written⟩ := Effect.apply_dbSet applied
    obtain ⟨allowed, rfl⟩ := RowLock.write_eq_some.mp written
    obtain ⟨-, rfl⟩ := Prod.mk.inj (Option.some.inj held)
    obtain ⟨active, rfl | same⟩ := carried.write_jobStep running meets does allowed
    · exact ⟨active, Or.inl ⟨_, rfl, rfl⟩⟩
    · exact ⟨active, Or.inr same⟩
  | commit next =>
    obtain ⟨rfl, rfl⟩ := Prod.mk.inj (Option.some.inj applied)
    exact absurd held RowLock.not_held_commit
  | note =>
    have stands : worker.job.stands ≠ .keep := by
      intro keeps
      cases does <;> simp_all only [reduceCtorEq, At.mayWait, Bool.false_eq_true]
    exact (read stands (Effect.apply_note applied).2 held).imp_right Or.inr
  | fail =>
    obtain ⟨allowed, rfl⟩ := RowLock.write_eq_some.mp (Effect.apply_fail applied).2
    obtain ⟨-, rfl⟩ := Prod.mk.inj (Option.some.inj held)
    refine ⟨nofun, Or.inr ?_⟩
    show ((s.row.undo .job).latest).suiteConfigured = _
    rw [RowLock.latest_undo allowed]
  | die =>
    obtain ⟨rfl, rfl⟩ := Prod.mk.inj (Option.some.inj applied)
    exact absurd held RowLock.not_held_release

@[simp] theorem job_reads (worker : Worker) (tenant : Tenant) (answer : Answer) :
    (worker.reads tenant answer).job = worker.job := by
  unfold Worker.reads
  split <;> rfl

theorem secret_reads {tenant : Tenant} (there : worker.job.stands ≠ .connect) :
    (worker.reads tenant answer).secret = worker.secret := by
  unfold Worker.reads
  split
  · next here => exact absurd here there
  · rfl
  · rfl
  · rfl
  · rfl
  · rfl

theorem Carried.worker_jobStep (carried : Carried s) (running : s.worker = some worker)
    (meets : Meets s (.job answer))
    (taken : worker.job.step .job s.row answer = some (left, after)) {job : Job}
    (stands : left = some job) : WorkerOk after (worker.sends s.remote answer)
      { worker.reads s.tenant.committed answer with job := job } := by
  have holds := carried.worker worker running
  obtain ⟨effect, named, applied⟩ := Job.step_eq_some.mp taken
  have does := Job.does_of_effect named
  cases effect with
  | loads =>
    obtain ⟨locked, got, ⟨step, found, rfl, rfl⟩ | ⟨-, rfl, -⟩⟩ := Effect.apply_loads applied
    · obtain rfl := Option.some.inj stands
      have held := RowLock.held_write got
      have out : isInside step = false ∧ step ≠ .keep := by
        obtain rfl | ⟨rfl, -⟩ | rfl := stepFor_eq_some found <;> exact ⟨rfl, nofun⟩
      refine ⟨fun inside => ?_, fun _ => ⟨⟨_, held⟩, ?_⟩, fun sent => ?_⟩
      · exact absurd inside (by rw [out.1]; exact nofun)
      · obtain ⟨-, ⟨job, same, keeps⟩ | flag⟩ := carried.held_jobStep running meets taken held
        · rw [← Option.some.inj same] at keeps
          exact absurd keeps out.2
        · show after.latest.suiteConfigured = _
          rw [RowLock.latest_of_held held, RowLock.committed_write got]
          exact flag
      · exact absurd (isInside_of_isSent sent) (by rw [out.1]; exact nofun)
    · cases stands
  | goTo next =>
    obtain ⟨rfl, rfl⟩ := Prod.mk.inj (Option.some.inj applied)
    obtain rfl := Option.some.inj stands
    cases does with
    | connects here => exact ⟨fun _ => holds.inside (by rw [here]; rfl), nofun, nofun⟩
    | sends here =>
      refine ⟨fun _ => holds.inside (by rw [here]; rfl), nofun, fun _ => ?_⟩
      show worker.sends s.remote .goesOn = (worker.reads s.tenant.committed .goesOn).secret
      rw [secret_reads (by rw [here]; exact nofun), Worker.sends, if_pos ⟨here, rfl⟩]
    | standing | requested | unfound | answered | conflict | running =>
      exact .outside rfl nofun
  | dbSet change next =>
    obtain ⟨rfl, written⟩ := Effect.apply_dbSet applied
    obtain rfl := Option.some.inj stands
    have held := RowLock.held_write written
    have flag : after.committed = s.row.committed := RowLock.committed_write written
    cases does with
    | configuring here =>
      have before := (holds.configure here).2
      by_cases configured : worker.job.doc.suiteConfigured
      · rw [if_pos configured]
        exact .outside rfl nofun
      · rw [if_neg configured]
        refine ⟨fun _ => ⟨⟨_, held⟩, ?_⟩, nofun, nofun⟩
        rw [flag, ← before]
        exact Bool.not_eq_true _ ▸ configured
    | configured here =>
      have inside := holds.inside (by rw [here]; rfl)
      refine ⟨fun _ => ⟨⟨_, held⟩, flag ▸ inside.2⟩, nofun, fun _ => ?_⟩
      show worker.sends s.remote .goesOn = (worker.reads s.tenant.committed .goesOn).secret
      rw [secret_reads (by rw [here]; exact nofun), Worker.sends, if_neg (by rw [here]; exact nofun)]
      exact holds.sent (by rw [here]; rfl)
    | place | found | creating | created | reroll | activates => exact .outside rfl nofun
  | commit next =>
    obtain ⟨rfl, rfl⟩ := Prod.mk.inj (Option.some.inj applied)
    cases does with
    | checkpoint | keeps | followsUp | again =>
      obtain rfl := Option.some.inj stands
      exact .outside rfl nofun
    | ends => cases stands
  | note =>
    obtain ⟨rfl, -⟩ := Effect.apply_note applied
    obtain rfl := Option.some.inj stands
    exact .outside rfl nofun
  | fail =>
    obtain ⟨rfl, -⟩ := Effect.apply_fail applied
    obtain rfl := Option.some.inj stands
    exact .outside rfl nofun
  | die =>
    obtain ⟨rfl, -⟩ := Prod.mk.inj (Option.some.inj applied)
    cases stands

theorem Carried.sends_jobStep (carried : Carried s) (running : s.worker = some worker)
    (configured : s.row.committed.suiteConfigured = true) :
    worker.sends s.remote answer = s.remote := by
  unfold Worker.sends
  refine if_neg fun sends => ?_
  have inside := (carried.worker worker running).inside (by rw [sends.1]; rfl)
  rw [inside.2] at configured
  cases configured

/-- **The checkpoint of `configure`**: the only open calls are out of date, and the site holds the
tenant's secret. -/
theorem Carried.keep_jobStep (carried : Carried s) (running : s.worker = some worker)
    (meets : Meets s (.job .goesOn)) (keep : worker.job.stands = .keep) :
    (∀ id call, s.calls id = some call → call.rotation.stands = .loaded ∧
      ¬call.isCurrent s.tenant) ∧ s.remote = some s.tenant.committed.secret := by
  obtain ⟨secret, others⟩ := (meets worker running rfl).1 keep
  have holds := carried.worker worker running
  obtain ⟨⟨version, held⟩, flag⟩ := holds.inside (by rw [keep]; rfl)
  refine ⟨fun id call open_ => ?_, (holds.sent (by rw [keep]; rfl)).trans secret⟩
  have callOk := carried.calls id call open_
  have foreign {version : SuiteSite} : s.row.held ≠ some (.rotation id, version) := by
    rw [held]
    exact nofun
  have stale : ¬call.isCurrent s.tenant := by
    intro current
    have configured := others id call open_ current
    rw [callOk.same current, flag] at configured
    · cases configured
    · intro there
      obtain ⟨version, mine, -⟩ := callOk.cleared there
      exact foreign mine
    · intro there
      obtain ⟨version, mine, -⟩ := callOk.taken there
      exact foreign mine
  refine ⟨?_, stale⟩
  by_contra past
  exact stale (callOk.saved past).1

theorem Carried.keep_of_flag (carried : Carried s) (running : s.worker = some worker)
    (taken : worker.job.step .job s.row answer = some (left, after))
    (changed : after.committed.suiteConfigured ≠ s.row.committed.suiteConfigured) :
    worker.job.stands = .keep ∧ answer = .goesOn ∧ after = s.row.commit .job := by
  have keep : worker.job.stands = .keep := by
    by_contra early
    exact changed (carried.flag_jobStep running early taken)
  have committed : after = s.row.commit .job := by
    refine (Job.step_committed taken).resolve_left fun same => changed ?_
    rw [same]
  refine ⟨keep, ?_, committed⟩
  obtain ⟨effect, named, applied⟩ := Job.step_eq_some.mp taken
  have does := Job.does_of_effect named
  cases does with
  | keeps => rfl
  | raises =>
    refine absurd ?_ changed
    rw [RowLock.committed_write (Effect.apply_fail applied).2, RowLock.committed_undo]
  | dies =>
    obtain ⟨-, rfl⟩ := Prod.mk.inj (Option.some.inj applied)
    exact absurd (by rw [RowLock.committed_release]) changed
  | _ => simp_all only [reduceCtorEq, At.mayWait, Bool.false_eq_true]

theorem rotation_ne_job (id : I) : Owner.rotation id ≠ .job := nofun

theorem Carried.jobStep (carried : Carried s) (meets : Meets s (.job answer))
    (taken : step s (.job answer) = some there) : Carried there := by
  obtain ⟨worker, running, taken⟩ := Option.bind_eq_some_iff.mp taken
  obtain ⟨⟨left, after⟩, made, rfl⟩ := Option.map_eq_some_iff.mp taken
  have foreign (id : I) {version : SuiteSite} : after.held = some (.rotation id, version) ↔
      s.row.held = some (.rotation id, version) := Job.step_held_other (rotation_ne_job id) made
  have stands (next : Worker) (here : left.map (fun job =>
      { worker.reads s.tenant.committed answer with job := job }) = some next) :
      WorkerOk after (worker.sends s.remote answer) next := by
    obtain ⟨job, stands, rfl⟩ := Option.map_eq_some_iff.mp here
    exact carried.worker_jobStep running meets made stands
  have rowHeld (id : I) (version : SuiteSite) (mine : after.held = some (.rotation id, version)) :=
    carried.rowHeld id version ((foreign id).mp mine)
  by_cases flag : after.committed.suiteConfigured = s.row.committed.suiteConfigured
  · refine ⟨carried.active_jobStep made, fun id call open_ => ?_, carried.tenantHeld, rowHeld, ?_,
      stands, fun unheld configured => ?_⟩
    · exact (carried.calls id call open_).congr flag (fun version => (foreign id).mpr)
        fun configured => carried.sends_jobStep running configured
    · intro version mine
      refine (carried.held_jobStep running meets made mine).imp_right ?_
      rintro (⟨job, stands, keeps⟩ | same)
      · exact Or.inl ⟨_, Option.map_eq_some_iff.mpr ⟨job, stands, rfl⟩, keeps⟩
      · exact Or.inr (same.trans flag.symm)
    · have configured : s.row.committed.suiteConfigured = true := flag.symm.trans configured
      exact (carried.sends_jobStep running configured).trans (carried.settled unheld configured)
  · obtain ⟨keep, rfl, rfl⟩ := carried.keep_of_flag running made flag
    obtain ⟨stale, holds⟩ := carried.keep_jobStep running meets keep
    have still : worker.sends s.remote .goesOn = s.remote :=
      if_neg (by rw [keep]; exact nofun)
    refine ⟨carried.active_jobStep made, fun id call open_ => ?_, carried.tenantHeld, rowHeld, ?_,
      stands, fun _ _ => still.trans holds⟩
    · obtain ⟨loaded, old⟩ := stale id call open_
      exact (carried.calls id call open_).of_loaded loaded le_rfl fun current => absurd current old
    · exact fun version mine => absurd mine RowLock.not_held_commit

/-! ## The calls -/

/-- The state after a step of one call. -/
def State.afterCall (s : State I) (id : I) (next : Option Call) (row : RowLock (Owner I) SuiteSite)
    (tenant : RowLock I Tenant) (remote : Option String) : State I :=
  { s.setCall id next with row := row, tenant := tenant, remote := remote }

theorem Carried.afterCall {next : Option Call} (carried : Carried s)
    (active : after.committed.status = .active → after.committed.suiteConfigured = true)
    (mine : ∀ call, next = some call → CallOk after later sent id call)
    (others : ∀ other call, other ≠ id → s.calls other = some call →
      CallOk after later sent other call)
    (tenantHeld : ∀ other version, later.held = some (other, version) →
      (other = id ∧ ∃ call, next = some call ∧ call.rotation.stands ≠ .loaded) ∨
        (other ≠ id ∧ s.tenant.held = some (other, version)))
    (rowHeld : ∀ other version, after.held = some (.rotation other, version) →
      (other = id ∧ ∃ call, next = some call ∧
        (call.rotation.stands = .unassign ∨ call.rotation.stands = .done true)) ∨
          (other ≠ id ∧ s.row.held = some (.rotation other, version)))
    (jobHeld : ∀ version, after.held = some (.job, version) → s.row.held = some (.job, version) ∧
      after.committed.suiteConfigured = s.row.committed.suiteConfigured)
    (worker : ∀ worker, s.worker = some worker → WorkerOk after sent worker)
    (settled : later.held = none → after.committed.suiteConfigured = true →
      sent = some later.committed.secret) : Carried (s.afterCall id next after later sent) where
  active := active
  calls := by
    intro other call open_
    by_cases same : other = id
    · subst same
      exact mine call ((setCall_calls_self s other next).symm.trans open_)
    · exact others other call same ((setCall_calls_of_ne s next same).symm.trans open_)
  tenantHeld := by
    intro other version held
    obtain ⟨rfl, call, open_, past⟩ | ⟨differ, before⟩ := tenantHeld other version held
    · exact ⟨call, (setCall_calls_self s other next).trans open_, past⟩
    · obtain ⟨call, open_, past⟩ := carried.tenantHeld other version before
      exact ⟨call, (setCall_calls_of_ne s next differ).trans open_, past⟩
  rowHeld := by
    intro other version held
    obtain ⟨rfl, call, open_, past⟩ | ⟨differ, before⟩ := rowHeld other version held
    · exact ⟨call, (setCall_calls_self s other next).trans open_, past⟩
    · obtain ⟨call, open_, past⟩ := carried.rowHeld other version before
      exact ⟨call, (setCall_calls_of_ne s next differ).trans open_, past⟩
  jobHeld := by
    intro version held
    obtain ⟨before, flag⟩ := jobHeld version held
    obtain ⟨active, keeps | same⟩ := carried.jobHeld version before
    · exact ⟨active, Or.inl keeps⟩
    · exact ⟨active, Or.inr (same.trans flag.symm)⟩
  worker := worker
  settled := settled

theorem Carried.rotateStep (carried : Carried s) (taken : step s (.rotate id) = some there) :
    Carried there := by
  simp only [step] at taken
  split at taken
  · next absent =>
    obtain rfl := Option.some.inj taken
    have fresh : s.calls id = none := Option.isNone_iff_eq_none.mp absent
    have elsewhere {other : I} {call : Call} (open_ : s.calls other = some call) : other ≠ id := by
      rintro rfl
      rw [fresh] at open_
      cases open_
    show Carried (s.afterCall id _ s.row s.tenant s.remote)
    refine carried.afterCall carried.active ?_ (fun other call _ => carried.calls other call)
      ?_ ?_ (fun version held => ⟨held, rfl⟩) carried.worker carried.settled
    · rintro call made
      obtain rfl := Option.some.inj made
      exact ⟨le_rfl, fun _ => carried.active, fun _ _ _ => rfl, fun past => absurd rfl past, nofun,
        nofun, nofun⟩
    · intro other version held
      obtain ⟨call, open_, -⟩ := carried.tenantHeld other version held
      exact Or.inr ⟨elsewhere open_, held⟩
    · intro other version held
      obtain ⟨call, open_, -⟩ := carried.rowHeld other version held
      exact Or.inr ⟨elsewhere open_, held⟩
  · cases taken

/-- A call that has only loaded goes away. -/
theorem Carried.close (carried : Carried s) (here : s.calls id = some call)
    (loaded : call.rotation.stands = .loaded) : Carried (s.setCall id none) := by
  show Carried (s.afterCall id none s.row s.tenant s.remote)
  refine carried.afterCall carried.active (fun _ made => absurd made (Option.some_ne_none _).symm)
    (fun other call _ => carried.calls other call) ?_ ?_ (fun version held => ⟨held, rfl⟩)
    carried.worker carried.settled
  · intro other version held
    refine Or.inr ⟨?_, held⟩
    rintro rfl
    obtain ⟨call, open_, past⟩ := carried.tenantHeld other version held
    rw [here] at open_
    exact past (Option.some.inj open_ ▸ loaded)
  · intro other version held
    refine Or.inr ⟨?_, held⟩
    rintro rfl
    obtain ⟨call, open_, past⟩ := carried.rowHeld other version held
    rw [here] at open_
    obtain rfl := Option.some.inj open_
    rw [loaded] at past
    obtain past | past := past <;> cases past

theorem Carried.saveStep {secret : String} (carried : Carried s)
    (taken : step s (.save id secret) = some there) : Carried there := by
  obtain ⟨call, here, taken⟩ := Option.bind_eq_some_iff.mp taken
  have callOk := carried.calls id call here
  split at taken
  · next loaded =>
    split at taken
    · next current =>
      obtain ⟨written, got, rfl⟩ := Option.map_eq_some_iff.mp taken
      have same := isCurrent_iff.mp current
      have committed := RowLock.committed_write got
      have held := RowLock.held_write got
      -- Nobody else had saved it: the call that has it locked would be this one.
      have free : s.tenant.held = none := by
        cases before : s.tenant.held with
        | none => rfl
        | some version =>
          obtain ⟨owner, version⟩ := version
          obtain rfl := RowLock.eq_of_mayLock (RowLock.write_eq_some.mp got).1 before
          obtain ⟨other, open_, past⟩ := carried.tenantHeld owner version before
          rw [here] at open_
          exact absurd loaded (Option.some.inj open_ ▸ past)
      rw [RowLock.latest_of_free free] at held
      show Carried (s.afterCall id _ s.row written s.remote)
      refine carried.afterCall carried.active ?_ ?_ ?_ ?_ (fun version held => ⟨held, rfl⟩)
        carried.worker ?_
      · rintro call' made
        obtain rfl := Option.some.inj made
        have unassign : call.rotation.stands ≠ .unassign := by
          intro unassigns
          rw [loaded] at unassigns
          cases unassigns
        have undone : call.rotation.stands ≠ .done true := by
          intro done
          rw [loaded] at done
          cases done
        refine ⟨?_, fun _ => callOk.active (Or.inl loaded), fun _ _ _ => ?_, fun _ => ⟨?_, ?_⟩, ?_, ?_,
          ?_⟩
        · rw [committed]
          exact callOk.older
        · exact callOk.same current unassign undone
        · rw [isCurrent_iff, committed]
          exact same
        · rw [committed]
          exact held
        · exact fun unassigns => RotationAt.noConfusion unassigns
        · exact fun done => RotationAt.noConfusion done
        · exact fun done => RotationAt.noConfusion done
      · intro other call' differ open_
        have loaded' : call'.rotation.stands = .loaded := by
          by_contra past
          rw [((carried.calls other call' open_).saved past).2] at free
          cases free
        refine (carried.calls other call' open_).of_loaded loaded' (by rw [committed]) fun now => ?_
        rw [isCurrent_iff, committed] at now
        exact ⟨isCurrent_iff.mpr now, rfl⟩
      · intro other version mine
        rw [held] at mine
        exact Or.inl ⟨(Prod.mk.inj (Option.some.inj mine)).1.symm, _, rfl,
          fun loads => RotationAt.noConfusion loads⟩
      · intro other version mine
        refine Or.inr ⟨?_, mine⟩
        rintro rfl
        obtain ⟨call', open_, past⟩ := carried.rowHeld other version mine
        rw [here] at open_
        obtain rfl := Option.some.inj open_
        rw [loaded] at past
        obtain past | past := past <;> cases past
      · intro unheld
        rw [held] at unheld
        cases unheld
    · split at taken
      · obtain rfl := Option.some.inj taken
        exact carried.close here loaded
      · cases taken
  · cases taken

theorem Carried.others (carried : Carried s) (here : s.calls id = some call)
    (past : call.rotation.stands ≠ .loaded)
    (flag : after.committed.suiteConfigured = s.row.committed.suiteConfigured) (other : I)
    (second : Call) (differ : other ≠ id) (open_ : s.calls other = some second) :
    CallOk after s.tenant sent other second :=
  (carried.calls other second open_).of_loaded (carried.loaded_of_ne here past open_ differ) le_rfl
    fun current => ⟨current, flag⟩

theorem Carried.tenantHeld_of (carried : Carried s) (here : s.calls id = some call)
    (past : call.rotation.stands ≠ .loaded) {next : Call} (on : next.rotation.stands ≠ .loaded)
    (other : I) (version : Tenant) (held : s.tenant.held = some (other, version)) :
    (other = id ∧ ∃ call, some next = some call ∧ call.rotation.stands ≠ .loaded) ∨
      (other ≠ id ∧ s.tenant.held = some (other, version)) := by
  have mine := ((carried.calls id call here).saved past).2
  rw [held] at mine
  exact Or.inl ⟨(Prod.mk.inj (Option.some.inj mine)).1, next, rfl, on⟩

theorem Carried.moveStep (carried : Carried s) (here : s.calls id = some call)
    (past : call.rotation.stands ≠ .loaded) {next : Call} (on : next.rotation.stands ≠ .loaded)
    (mine : CallOk s.row s.tenant sent id next)
    (rowHeld : ∀ version, s.row.held = some (.rotation id, version) →
      next.rotation.stands = .unassign ∨ next.rotation.stands = .done true)
    (same : sent = s.remote ∨ s.row.committed.suiteConfigured = true) :
    Carried (s.afterCall id (some next) s.row s.tenant sent) := by
  have tenant := ((carried.calls id call here).saved past).2
  refine carried.afterCall carried.active ?_ (carried.others here past rfl)
    (carried.tenantHeld_of here past on) ?_ (fun version held => ⟨held, rfl⟩) ?_ ?_
  · intro call' made
    obtain rfl := Option.some.inj made
    exact mine
  · intro other version held
    by_cases equal : other = id
    · subst equal
      exact Or.inl ⟨rfl, next, rfl, rowHeld version held⟩
    · exact Or.inr ⟨equal, held⟩
  · intro worker running
    have holds := carried.worker worker running
    refine ⟨holds.inside, holds.configure, fun sentHere => ?_⟩
    obtain rfl | configured := same
    · exact holds.sent sentHere
    · rw [(holds.inside (isInside_of_isSent sentHere)).2] at configured
      cases configured
  · intro free
    rw [tenant] at free
    cases free

theorem Carried.writeStep {change : SuiteSite → SuiteSite} (carried : Carried s)
    (here : s.calls id = some call) (past : call.rotation.stands ≠ .loaded) {next : Call}
    (written : s.row.write (.rotation id) change = some after)
    (on : next.rotation.stands = .unassign ∨ next.rotation.stands = .done true)
    (mine : CallOk after s.tenant s.remote id next) :
    Carried (s.afterCall id (some next) after s.tenant s.remote) := by
  have tenant := ((carried.calls id call here).saved past).2
  obtain ⟨allowed, rfl⟩ := RowLock.write_eq_some.mp written
  have on' : next.rotation.stands ≠ .loaded := by
    obtain stands | stands := on <;> rw [stands] <;> exact nofun
  refine carried.afterCall carried.active ?_ (carried.others here past rfl)
    (carried.tenantHeld_of here past on') ?_ ?_ ?_ ?_
  · intro call' made
    obtain rfl := Option.some.inj made
    exact mine
  · intro other version held
    obtain ⟨same, -⟩ := Prod.mk.inj (Option.some.inj held)
    exact Or.inl ⟨(Owner.rotation.inj same).symm, next, rfl, on⟩
  · intro version held
    obtain ⟨same, -⟩ := Prod.mk.inj (Option.some.inj held)
    cases same
  · intro worker running
    refine (carried.worker worker running).congr fun version held => ?_
    exact rotation_ne_job id (RowLock.eq_of_mayLock allowed held).symm
  · intro free
    rw [tenant] at free
    cases free

theorem Call.sends_of_ne {delivered : Bool} (past : call.rotation.stands ≠ .saved) :
    call.sends remote delivered = remote := if_neg fun sends => past sends.1

theorem Carried.pushStep {reached delivered : Bool} (carried : Carried s)
    (meets : Meets s (.push id reached delivered))
    (taken : step s (.push id reached delivered) = some there) : Carried there := by
  obtain ⟨call, here, taken⟩ := Option.bind_eq_some_iff.mp taken
  obtain ⟨⟨rotation, after⟩, made, rfl⟩ := Option.map_eq_some_iff.mp taken
  have callOk := carried.calls id call here
  show Carried (s.afterCall id (some { call with rotation := rotation }) after s.tenant
    (call.sends s.remote (reached || delivered)))
  have rowHeld {stands : RotationAt} (at_ : call.rotation.stands = stands)
      (early : stands = .saved ∨ stands = .clear) {version : SuiteSite}
      (held : s.row.held = some (.rotation id, version)) : False := by
    obtain ⟨call', open_, past⟩ := carried.rowHeld id version held
    rw [here] at open_
    obtain rfl := Option.some.inj open_
    rw [at_] at past
    obtain rfl | rfl := early <;> obtain past | past := past <;> cases past
  cases Rotation.pushes_of_push made with
  | reached stands active got =>
    have saved := callOk.saved (by rw [stands]; exact nofun)
    have flag := callOk.same saved.1 (by rw [stands]; exact nofun) (by rw [stands]; exact nofun)
    have configured := callOk.active (Or.inr (Or.inl stands)) active
    have sends : call.sends s.remote (reached || delivered) = some call.secret :=
      if_pos ⟨stands, active, by rw [got]; rfl⟩
    refine carried.moveStep here (by rw [stands]; exact nofun) nofun ?_
      (fun version held => (rowHeld stands (Or.inl rfl) held).elim) (Or.inr (flag ▸ configured))
    exact ⟨callOk.older, nofun, fun _ _ _ => flag, fun _ => saved, nofun, nofun,
      fun _ _ => sends⟩
  | unreached stands missed =>
    have saved := callOk.saved (by rw [stands]; exact nofun)
    have flag := callOk.same saved.1 (by rw [stands]; exact nofun) (by rw [stands]; exact nofun)
    have active := callOk.active (Or.inr (Or.inl stands))
    refine carried.moveStep here (by rw [stands]; exact nofun) nofun ?_
      (fun version held => (rowHeld stands (Or.inl rfl) held).elim) ?_
    · exact ⟨callOk.older, fun _ => active, fun _ _ _ => flag, fun _ => saved, nofun, nofun, nofun⟩
    · unfold Call.sends
      split
      · next sends => exact Or.inr (flag ▸ active sends.2.1)
      · exact Or.inl rfl
  | clears _ stands configured written =>
    have saved := callOk.saved (by rw [stands]; exact nofun)
    rw [Call.sends_of_ne (by rw [stands]; exact nofun)]
    refine carried.writeStep here (by rw [stands]; exact nofun) written (Or.inl rfl) ?_
    refine ⟨callOk.older, nofun, fun _ first => absurd rfl first, fun _ => saved,
      fun _ => ⟨_, RowLock.held_write written, rfl, ?_⟩, nofun, nofun⟩
    by_cases active : call.rotation.doc.status = .active
    · exact Or.inl active
    · exact Or.inr (meets call here stands configured active)
  | unconfigured stands unconfigured =>
    have saved := callOk.saved (by rw [stands]; exact nofun)
    have flag := callOk.same saved.1 (by rw [stands]; exact nofun) (by rw [stands]; exact nofun)
    rw [Call.sends_of_ne (by rw [stands]; exact nofun)]
    refine carried.moveStep here (by rw [stands]; exact nofun) nofun ?_
      (fun version held => (rowHeld stands (Or.inr rfl) held).elim) (Or.inl rfl)
    refine ⟨callOk.older, nofun, fun _ _ _ => flag, fun _ => saved, nofun, nofun,
      fun _ configured => ?_⟩
    rw [← flag, unconfigured] at configured
    cases configured
  | unassigns _ stands active written =>
    have saved := callOk.saved (by rw [stands]; exact nofun)
    obtain ⟨version, held, cleared, -⟩ := callOk.cleared stands
    have wrote := RowLock.held_write written
    rw [RowLock.latest_of_held held] at wrote
    rw [Call.sends_of_ne (by rw [stands]; exact nofun)]
    refine carried.writeStep here (by rw [stands]; exact nofun) written (Or.inr rfl) ?_
    exact ⟨callOk.older, nofun, fun _ _ second => absurd rfl second, fun _ => saved, nofun,
      fun _ => ⟨_, wrote, cleared, nofun⟩, nofun⟩
  | requeues stands other =>
    have saved := callOk.saved (by rw [stands]; exact nofun)
    obtain ⟨version, held, cleared, status⟩ := callOk.cleared stands
    rw [Call.sends_of_ne (by rw [stands]; exact nofun)]
    refine carried.moveStep here (by rw [stands]; exact nofun) nofun ?_ (fun _ _ => Or.inr rfl)
      (Or.inl rfl)
    exact ⟨callOk.older, nofun, fun _ _ second => absurd rfl second, fun _ => saved, nofun,
      fun _ => ⟨version, held, cleared, status.resolve_left other⟩, nofun⟩

theorem Carried.enqueue (carried : Carried s) : Carried s.enqueue := by
  unfold State.enqueue
  split
  · exact carried
  · exact ⟨carried.active, carried.calls, carried.tenantHeld, carried.rowHeld, carried.jobHeld,
      carried.worker, carried.settled⟩

/-- **The end of a call**: the new secret is the tenant's, and the site holds it, or is to be
configured again. -/
theorem Carried.commitStep (carried : Carried s) (taken : step s (.commit id) = some there) :
    Carried there := by
  obtain ⟨call, here, taken⟩ := Option.bind_eq_some_iff.mp taken
  have callOk := carried.calls id call here
  split at taken
  · next requeues stands =>
    have past : call.rotation.stands ≠ .loaded := by
      rw [stands]
      exact nofun
    obtain ⟨current, held⟩ := callOk.saved past
    have committed : (s.tenant.commit id).committed =
        ⟨call.secret, s.tenant.committed.modified + 1⟩ := by
      rw [RowLock.committed_commit, if_pos (RowLock.isHeldBy_iff.mpr ⟨_, held⟩),
        RowLock.latest_of_held held]
    have others (after : RowLock (Owner I) SuiteSite) (other : I) (second : Call) (differ : other ≠ id)
        (open_ : s.calls other = some second) :
        CallOk after (s.tenant.commit id) s.remote other second := by
      have secondOk := carried.calls other second open_
      refine secondOk.of_loaded (carried.loaded_of_ne here past open_ differ)
        (by rw [committed]; exact Nat.le_succ _) fun now => ?_
      rw [isCurrent_iff, committed] at now
      exact absurd secondOk.older (by rw [now]; exact Nat.not_succ_le_self _)
    have tenantHeld (other : I) (version : Tenant)
        (there : (s.tenant.commit id).held = some (other, version)) : other ≠ id ∧
          s.tenant.held = some (other, version) := by
      have differ : other ≠ id := by
        rintro rfl
        exact RowLock.not_held_commit there
      exact ⟨differ, (RowLock.commit_held_other differ).mp there⟩
    have rowHeld (other : I) (version : SuiteSite)
        (there : (s.row.commit (.rotation id)).held = some (.rotation other, version)) : other ≠ id ∧
          s.row.held = some (.rotation other, version) := by
      have differ : other ≠ id := by
        rintro rfl
        exact RowLock.not_held_commit there
      exact ⟨differ, (RowLock.commit_held_other fun same => differ (Owner.rotation.inj same)).mp there⟩
    have ended : Carried (s.afterCall id none (s.row.commit (.rotation id)) (s.tenant.commit id)
        s.remote) := by
      cases requeues with
      | false =>
        have unheld : ¬s.row.isHeldBy (.rotation id) := by
          intro held
          obtain ⟨version, held⟩ := RowLock.isHeldBy_iff.mp held
          obtain ⟨call', open_, at_⟩ := carried.rowHeld id version held
          rw [here] at open_
          obtain rfl := Option.some.inj open_
          rw [stands] at at_
          obtain at_ | at_ := at_ <;> cases at_
        have same : s.row.commit (.rotation id) = s.row := if_neg unheld
        rw [same] at rowHeld ⊢
        refine carried.afterCall carried.active (fun _ made => absurd made (Option.some_ne_none _).symm)
          (others s.row) (fun other version held => Or.inr (tenantHeld other version held))
          (fun other version held => Or.inr (rowHeld other version held))
          (fun version held => ⟨held, rfl⟩) carried.worker fun _ configured => ?_
        rw [committed]
        exact callOk.pushed stands configured
      | true =>
        obtain ⟨version, held, cleared, status⟩ := callOk.taken stands
        have kept : (s.row.commit (.rotation id)).committed = version := by
          rw [RowLock.committed_commit, if_pos (RowLock.isHeldBy_iff.mpr ⟨_, held⟩),
            RowLock.latest_of_held held]
        have foreign (version : SuiteSite) : s.row.held ≠ some (.job, version) := by
          rw [held]
          exact nofun
        refine carried.afterCall (fun active => ?_)
          (fun _ made => absurd made (Option.some_ne_none _).symm) (others _)
          (fun other version held => Or.inr (tenantHeld other version held))
          (fun other version held => Or.inr (rowHeld other version held)) (fun version held => ?_)
          (fun worker running => (carried.worker worker running).congr foreign)
          fun _ configured => ?_
        · rw [kept] at active
          exact absurd active status
        · rw [RowLock.commit_held_other (rotation_ne_job id).symm] at held
          exact absurd held (foreign version)
        · rw [kept, cleared] at configured
          cases configured
    obtain rfl := Option.some.inj taken
    cases requeues with
    | true => exact ended.enqueue
    | false => exact ended
  · cases taken

/-! ## Every run -/

theorem carried_initial {site : SuiteSite} {tenant : Tenant} (starts : Starts site tenant remote) :
    Carried (State.initial site tenant remote : State I) where
  active := starts.active
  calls := fun _ _ open_ => nomatch open_
  tenantHeld := fun _ _ held => nomatch held
  rowHeld := fun _ _ held => nomatch held
  jobHeld := fun _ held => nomatch held
  worker := fun _ running => nomatch running
  settled := fun _ => starts.configured

variable {action : Action I}

theorem carried_step (carried : Carried s) (meets : Meets s action)
    (taken : step s action = some there) : Carried there := by
  cases action with
  | poll =>
    simp only [step] at taken
    split at taken
    · obtain rfl := Option.some.inj taken
      exact carried.enqueue
    · cases taken
  | start =>
    simp only [step] at taken
    split at taken
    · next free =>
      obtain rfl := Option.some.inj taken
      have absent := Option.isNone_iff_eq_none.mp free.2
      refine ⟨carried.active, carried.calls, carried.tenantHeld, carried.rowHeld,
        fun version held => ?_, fun worker running => ?_, carried.settled⟩
      · refine (carried.jobHeld version held).imp_right fun keeps => Or.inr (keeps.resolve_left ?_)
        rintro ⟨worker, running, -⟩
        rw [absent] at running
        cases running
      · obtain rfl := Option.some.inj running
        exact .outside rfl nofun
    · cases taken
  | read =>
    obtain ⟨worker, running, rfl⟩ := Option.map_eq_some_iff.mp taken
    have holds := carried.worker worker running
    refine ⟨carried.active, carried.calls, carried.tenantHeld, carried.rowHeld,
      fun version held => ?_, fun next same => ?_, carried.settled⟩
    · refine (carried.jobHeld version held).imp_right (Or.imp_left ?_)
      rintro ⟨other, there, keeps⟩
      rw [running] at there
      obtain rfl := Option.some.inj there
      exact ⟨_, rfl, keeps⟩
    · obtain rfl := Option.some.inj same
      exact ⟨holds.inside, holds.configure, holds.sent⟩
  | job answer => exact carried.jobStep meets taken
  | rotate id => exact carried.rotateStep taken
  | save id secret => exact carried.saveStep taken
  | push id reached delivered => exact carried.pushStep meets taken
  | commit id => exact carried.commitStep taken
  | refuse id =>
    obtain ⟨call, here, taken⟩ := Option.bind_eq_some_iff.mp taken
    split at taken
    · next loaded =>
      obtain rfl := Option.some.inj taken
      exact carried.close here loaded
    · cases taken

/-- **A rotated secret reaches the site.** In every run of a site from Assigned on, in which
`configure` commits the flag only with the secret that is current and with no call left that read
the site before, and no flag is taken back around the activation: once no rotation is open, an
Active site holds the tenant's secret. -/
theorem rotated_secret_reaches_site {site : SuiteSite} {tenant : Tenant}
    (starts : Starts site tenant remote)
    (reached : Reaches step Meets (State.initial site tenant remote : State I) s)
    (settled : ∀ id, s.calls id = none) (active : s.row.committed.status = .active) :
    s.remote = some s.tenant.committed.secret := by
  have carried : Carried s := reached.invariant Carried (carried_initial starts) carried_step
  refine carried.settled ?_ (carried.active active)
  cases held : s.tenant.held with
  | none => rfl
  | some version =>
    obtain ⟨id, version⟩ := version
    obtain ⟨call, open_, -⟩ := carried.tenantHeld id version held
    rw [settled id] at open_
    cases open_

/-! ### Runs -/

instance decidableKeepsSecret {n : ℕ} (s : State (Fin n)) (worker : Worker) :
    Decidable (keepsSecret s worker) :=
  inferInstanceAs (Decidable (_ ∧ ∀ id : Fin n, ∀ call ∈ s.calls id, _ → _))

instance decidableMeets {n : ℕ} (s : State (Fin n)) : ∀ action, Decidable (Meets s action)
  | .job _ => inferInstanceAs (Decidable (∀ worker ∈ s.worker, _ → (_ → keepsSecret s worker) ∧ _))
  | .push id _ _ => inferInstanceAs (Decidable (∀ call ∈ s.calls id, _ → _ → _ → _))
  | .poll | .start | .read | .rotate _ | .save _ _ | .commit _ | .refuse _ => isTrue trivial

/-- A tenant's site that is created and not configured. -/
def assigned : SuiteSite :=
  ⟨"0199-desk", some "0198-desk", .assigned, some "vm-2", some "suite-2c.example.net", 0, none, true,
    false⟩

/-- A job that configures the site, up to its end. -/
def configures : List (Action (Fin 2)) := [Action.poll, .start] ++ List.replicate 11 (Action.job .goesOn)

/-- A call and the statements of its push. -/
def rotates (id : Fin 2) (secret : String) (reached : Bool) (statements : ℕ) : List (Action (Fin 2)) :=
  [Action.rotate id, .save id secret] ++ List.replicate statements (Action.push id reached false) ++
    [Action.commit id]

/-- The first call, and the second. -/
def firstCall : Fin 2 := ⟨0, Nat.zero_lt_two⟩

def secondCall : Fin 2 := ⟨1, Nat.one_lt_two⟩

/-- The site is configured; one rotation reaches it, and the next does not and has it configured
again. -/
def rotatedTwice : List (Action (Fin 2)) :=
  configures ++ rotates firstCall "second" true 1 ++ rotates secondCall "third" false 3 ++ configures

/-- Nothing is open, running or queued. -/
def isQuiet (s : State (Fin 2)) : Bool :=
  (s.calls firstCall).isNone && (s.calls secondCall).isNone && s.worker.isNone && !s.isQueued

theorem calls_of_isQuiet {s : State (Fin 2)} (quiet : isQuiet s) : ∀ id, s.calls id = none := by
  unfold isQuiet at quiet
  simp only [Bool.and_eq_true, Option.isNone_iff_eq_none] at quiet
  rw [Fin.forall_fin_two]
  exact quiet.1.1

theorem rotated_secret_reaches_site_twice : ∃ s : State (Fin 2),
    run step (State.initial assigned ⟨"first", 0⟩ none) rotatedTwice = some s ∧
    s.tenant.committed.secret = "third" ∧ s.remote = some s.tenant.committed.secret := by
  have ends : (run step (State.initial assigned ⟨"first", 0⟩ none) rotatedTwice).map
      (fun s => (isQuiet s, s.row.committed.status, s.tenant.committed.secret)) =
        some (true, .active, "third") := by
    decide
  have meets : RunMeets step Meets (State.initial assigned ⟨"first", 0⟩ none) rotatedTwice := by
    decide
  obtain ⟨s, done, found⟩ := Option.map_eq_some_iff.mp ends
  simp only [Prod.mk.injEq] at found
  obtain ⟨quiet, active, secret⟩ := found
  have starts : Starts assigned ⟨"first", 0⟩ none := ⟨by decide, by decide⟩
  exact ⟨s, done, secret, rotated_secret_reaches_site starts (reaches_of_run meets done)
    (calls_of_isQuiet quiet) active⟩

/-- A rotation between the job's read of the tenant and its checkpoint. -/
def rotatedMeanwhile : List (Action (Fin 2)) :=
  [Action.poll, .start] ++ List.replicate 4 (Action.job .goesOn) ++ rotates firstCall "second" true 2 ++
    List.replicate 7 (Action.job .goesOn)

/-- **A rotation while the site is configured is missed**: nothing is open or queued, the site is Active
and holds the old secret. -/
theorem rotation_missed : ∃ s : State (Fin 2),
    Reaches step anyStep (State.initial assigned ⟨"first", 0⟩ none) s ∧ isQuiet s ∧
    s.row.committed.status = .active ∧ s.remote = some "first" ∧
    s.tenant.committed.secret = "second" := by
  have ends : (run step (State.initial assigned ⟨"first", 0⟩ none) rotatedMeanwhile).map
      (fun s => (isQuiet s, s.row.committed.status, s.remote, s.tenant.committed.secret)) =
        some (true, .active, some "first", "second") := by
    decide
  obtain ⟨s, done, found⟩ := Option.map_eq_some_iff.mp ends
  simp only [Prod.mk.injEq] at found
  exact ⟨s, reaches_of_run (runMeets_of_forall fun _ _ _ => trivial) done, found⟩

end SuiteCloud.Hosting.Secrets
