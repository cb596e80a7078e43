/-
**How often a Server Job starts its playbook by itself.**

`execute`, `fire_callback`, `mark_finished`, `is_stale`, `retry` and `retry_failed_jobs` of
`suite_cloud/suite_cloud/doctype/server_job/server_job.py`: one job, its entry in the queue, the worker that
runs it and the cron that retries it. Nobody presses Retry.

* `Action`, `step` — time, the worker from the document it loads to the callback, a worker that vanishes, the
  queue that finds it gone, the cron.
* `markFinished` — a run that ended; one that failed is counted in `retries`.
* `State.starts`, `State.lost` — how often the playbook was started, and how often the worker vanished while
  it ran.
* `Inv` — every start but the last is counted, or its worker vanished.
* `starts_bounded` — **the playbook is started at most `max_retries + 1` times, and once more for each worker
  that vanished.**
* `started_after_vanishing` — with no retries allowed, a worker that vanishes makes for a second start.
-/

import SuiteCloud.Library.Transition
import Mathlib.Algebra.Order.Group.Int
import Mathlib.Data.Int.Notation

namespace SuiteCloud.Provisioning.ServerJobs

open SuiteCloud.Library

/-! ## A job, the queue and the worker -/

inductive Status
  | pending
  | running
  | success
  | failed
  deriving DecidableEq

/-- A Server Job, as far as it decides when it runs; times are in seconds. -/
structure Job where
  status : Status
  retries : ℤ
  maxRetries : ℤ
  startedAt : Option ℤ
  creation : ℤ
  deriving DecidableEq

/-- What the queue has under the job's id, `server-job:<name>`. -/
inductive Entry
  | absent
  | queued
  | started
  deriving DecidableEq

/-- Where the worker stands in `execute`; `retries` is the field as the document has it. -/
inductive Phase
  | loaded (job : Job)
  | building (retries : ℤ)
  | playing (retries : ℤ)
  /-- Marked Success, the callback is called. -/
  | succeeded (retries : ℤ)
  /-- Marked Failed, the callback of a failure is called. -/
  | failing
  deriving DecidableEq

/-- `starts` counts the runs of the playbook, `lost` those whose worker vanished before the run was marked
finished. -/
structure State where
  now : ℤ
  job : Job
  entry : Entry
  worker : Option Phase
  starts : ℕ
  lost : ℕ
  deriving DecidableEq

/-- `create_server_job`. -/
def State.start (now maxRetries : ℤ) : State :=
  ⟨now, ⟨.pending, 0, maxRetries, none, now⟩, .queued, none, 0, 0⟩

/-- How the playbook ends. -/
inductive Outcome
  | success
  | failed
  | raised
  deriving DecidableEq

inductive Action
  /-- The wall clock goes on, or is set. -/
  | pass (seconds : ℤ)
  /-- A worker takes the entry and loads the document. -/
  | take
  /-- It enters `execute`; `server_job_timeout` is `timeout`, and `assert_test_host` raises or not. -/
  | execute (timeout : ℤ) (refused : Bool)
  /-- `build_variables`. -/
  | build (raises : Bool)
  | play (outcome : Outcome)
  /-- The callback, or that of a failure, whose exceptions are logged. -/
  | callback (raises : Bool)
  | vanish
  /-- The queue notices that the worker is gone. -/
  | cleanup
  /-- `retry_failed_jobs`; `superseded` is what `is_superseded` finds. -/
  | cron (timeout : ℤ) (superseded : Bool)

variable (s : State)

/-- `cint(get_config("server_job_timeout")) or 1800`. -/
def jobTimeout (timeout : ℤ) : ℤ := if timeout = 0 then 1800 else timeout

/-- `is_stale`. -/
def Job.isStale (now timeout : ℤ) (job : Job) : Bool :=
  job.status = .running && job.startedAt.any fun startedAt => jobTimeout timeout < now - startedAt

/-- `enqueue`: an entry that is queued or started is not doubled. -/
def State.enqueue : State := if s.entry = .absent then { s with entry := .queued } else s

/-- What `retry` does to the row; the fields of its tasks are left out. -/
def State.retry : State := State.enqueue { s with job := { s.job with status := .pending } }

/-- `mark_running`. -/
def Job.markRunning (now : ℤ) (job : Job) : Job := { job with status := .running, startedAt := some now }

/-- `mark_finished("Success")`. -/
def Job.markSucceeded (job : Job) : Job := { job with status := .success }

/-- `mark_finished("Failed")`, the document having `retries`. -/
def Job.markFailed (retries : ℤ) (job : Job) : Job := { job with status := .failed, retries := retries + 1 }

/-- The worker is done with the entry. -/
def State.leave : State := { s with worker := none, entry := .absent }

/-- One job of `retry_failed_jobs`. -/
def State.cron (timeout : ℤ) (superseded : Bool) : State :=
  if superseded then s
  else if s.job.status = .failed ∧ s.job.retries ≤ s.job.maxRetries then s.retry
  else if s.job.isStale s.now timeout then s.retry
  else if s.job.status = .pending ∧ 2 * jobTimeout timeout < s.now - s.job.creation then s.enqueue
  else s

/-- **One step.** -/
def step : Action → Option State
  | .pass seconds => some { s with now := s.now + seconds }
  | .take =>
    if s.entry = .queued then some { s with entry := .started, worker := some (.loaded s.job) } else none
  | .execute timeout refused =>
    match s.worker with
    | some (.loaded job) =>
      if job.status = .running ∧ ¬ job.isStale s.now timeout then some s.leave
      else if refused then some s.leave
      else some { s with job := s.job.markRunning s.now, worker := some (.building s.job.retries) }
    | _ => none
  | .build raises =>
    match s.worker with
    | some (.building retries) =>
      if raises then some { s with job := s.job.markFailed retries, worker := some .failing }
      else some { s with worker := some (.playing retries), starts := s.starts + 1 }
    | _ => none
  | .play outcome =>
    match s.worker with
    | some (.playing retries) =>
      match outcome with
      | .success => some { s with job := s.job.markSucceeded, worker := some (.succeeded retries) }
      | .failed | .raised => some { s with job := s.job.markFailed retries, worker := some .failing }
    | _ => none
  | .callback raises =>
    match s.worker with
    | some (.succeeded retries) =>
      if raises then some { s with job := s.job.markFailed retries, worker := some .failing } else some s.leave
    | some .failing => some s.leave
    | _ => none
  | .vanish =>
    match s.worker with
    | some (.playing _) => some { s with worker := none, lost := s.lost + 1 }
    | some _ => some { s with worker := none }
    | none => none
  | .cleanup => if s.worker = none ∧ s.entry = .started then some { s with entry := .absent } else none
  | .cron timeout superseded => some (s.cron timeout superseded)

/-! ## What a step keeps -/

section Runs

variable {s} {s' : State} {maxRetries : ℤ}

/-- The counts, where `retries` may have grown to `most` and so many starts are not counted yet. -/
structure Bounded (job : Job) (starts lost : ℕ) (most : ℤ) (uncounted : ℕ) : Prop where
  retries : job.retries ≤ most
  starts : (starts : ℤ) ≤ job.retries + lost + uncounted

/-- The counts by the status of the job, when its playbook does not run. -/
def Settled (job : Job) (starts lost : ℕ) : Prop :=
  match job.status with
  | .pending | .running => Bounded job starts lost (max job.maxRetries 0) 0
  | .failed => Bounded job starts lost (max job.maxRetries 0 + 1) 0
  | .success => Bounded job starts lost (max job.maxRetries 0) 1

/-- The job waits or runs. -/
def Job.Unfinished (job : Job) : Prop := job.status = .pending ∨ job.status = .running

/-- The counts by where the worker stands; the document it holds has the `retries` of the row. -/
def AtPhase (job : Job) (starts lost : ℕ) : Option Phase → Prop
  | none => Settled job starts lost
  | some (.loaded _) => job.status = .pending ∧ Settled job starts lost
  | some (.building retries) => retries = job.retries ∧ job.Unfinished ∧ Settled job starts lost
  | some (.playing retries) =>
    retries = job.retries ∧ job.Unfinished ∧ Bounded job starts lost (max job.maxRetries 0) 1
  | some (.succeeded retries) => retries = job.retries ∧ job.status = .success ∧ Settled job starts lost
  | some .failing => Settled job starts lost

/-- **The invariant.** -/
structure Inv (maxRetries : ℤ) (s : State) : Prop where
  limit : s.job.maxRetries = maxRetries
  /-- A worker has the entry. -/
  entry : s.worker ≠ none → s.entry = .started
  /-- Only a pending job waits in the queue. -/
  queued : s.entry = .queued → s.job.status = .pending
  phase : AtPhase s.job s.starts s.lost s.worker

section Counts

variable {job : Job} {starts lost : ℕ}

theorem settled_unfinished (unfinished : job.Unfinished) :
    Settled job starts lost ↔ Bounded job starts lost (max job.maxRetries 0) 0 := by
  rw [Settled]
  rcases unfinished with status | status
  · rw [status]
  · rw [status]

theorem settled_success (status : job.status = .success) :
    Settled job starts lost ↔ Bounded job starts lost (max job.maxRetries 0) 1 := by
  rw [Settled, status]

theorem settled_failed (status : job.status = .failed) :
    Settled job starts lost ↔ Bounded job starts lost (max job.maxRetries 0 + 1) 0 := by
  rw [Settled, status]

theorem Bounded.markFailed {retries : ℤ} (same : retries = job.retries)
    (bounded : Bounded job starts lost (max job.maxRetries 0) 1) :
    Settled (job.markFailed retries) starts lost := by
  subst same
  obtain ⟨few, counted⟩ := bounded
  refine (settled_failed rfl).mpr ⟨?_, ?_⟩
  · exact Int.add_le_add_right few 1
  · show (starts : ℤ) ≤ job.retries + 1 + lost + (0 : ℕ)
    omega

/-- Fewer starts that are not counted are within more. -/
theorem Bounded.more {most : ℤ} (bounded : Bounded job starts lost most 0) :
    Bounded job starts lost most 1 := by
  obtain ⟨few, counted⟩ := bounded
  exact ⟨few, by omega⟩

/-- **The bound**, of any status. -/
theorem Settled.le (settled : Settled job starts lost) :
    (starts : ℤ) ≤ max job.maxRetries 0 + 1 + lost := by
  cases status : job.status with
  | pending =>
    obtain ⟨few, counted⟩ := (settled_unfinished (Or.inl status)).mp settled
    omega
  | running =>
    obtain ⟨few, counted⟩ := (settled_unfinished (Or.inr status)).mp settled
    omega
  | success =>
    obtain ⟨few, counted⟩ := (settled_success status).mp settled
    omega
  | failed =>
    obtain ⟨few, counted⟩ := (settled_failed status).mp settled
    omega

theorem AtPhase.le {worker : Option Phase} (phase : AtPhase job starts lost worker) :
    (starts : ℤ) ≤ max job.maxRetries 0 + 1 + lost := by
  cases worker with
  | none => exact Settled.le phase
  | some stands =>
    cases stands with
    | loaded document => exact phase.2.le
    | building retries => exact phase.2.2.le
    | playing retries =>
      obtain ⟨few, counted⟩ := phase.2.2
      omega
    | succeeded retries => exact phase.2.2.le
    | failing => exact Settled.le phase

end Counts

theorem Inv.start (now maxRetries : ℤ) : Inv maxRetries (State.start now maxRetries) :=
  ⟨rfl, fun held => (held rfl).elim, fun _ => rfl, ⟨le_max_right _ _, le_refl 0⟩⟩

/-! ### The cron -/

theorem enqueue_cases (s : State) :
    s.enqueue = s ∨ (s.entry = .absent ∧ s.enqueue = { s with entry := .queued }) := by
  rw [State.enqueue]
  split
  · exact Or.inr ⟨‹_›, rfl⟩
  · exact Or.inl rfl

/-- **What the cron does**: nothing, queue a pending job, or make one that failed or lost its worker pending. -/
theorem cron_cases (s : State) (timeout : ℤ) (superseded : Bool) :
    s.cron timeout superseded = s ∨
      (s.job.status = .pending ∧ s.cron timeout superseded = s.enqueue) ∨
      ((s.job.status = .failed ∧ s.job.retries ≤ s.job.maxRetries ∨ s.job.status = .running) ∧
        s.cron timeout superseded = s.retry) := by
  rw [State.cron]
  split
  · exact Or.inl rfl
  split
  · exact Or.inr (Or.inr ⟨Or.inl ‹_›, rfl⟩)
  split
  · rename_i stale
    rw [Job.isStale, Bool.and_eq_true, decide_eq_true_eq] at stale
    exact Or.inr (Or.inr ⟨Or.inr stale.1, rfl⟩)
  split
  · rename_i waits
    exact Or.inr (Or.inl ⟨waits.1, rfl⟩)
  · exact Or.inl rfl

theorem enqueue_inv (inv : Inv maxRetries s) (pending : s.job.status = .pending) :
    Inv maxRetries s.enqueue := by
  rcases enqueue_cases s with same | ⟨absent, queued⟩
  · rw [same]
    exact inv
  · rw [queued]
    refine ⟨inv.limit, fun held => ?_, fun _ => pending, inv.phase⟩
    rw [inv.entry held] at absent
    cases absent

theorem pending_inv (inv : Inv maxRetries s)
    (again : s.job.status = .failed ∧ s.job.retries ≤ s.job.maxRetries ∨ s.job.status = .running) :
    Inv maxRetries { s with job := { s.job with status := .pending } } := by
  have unqueued : s.entry ≠ .queued := by
    intro queued
    have pending := inv.queued queued
    rcases again with ⟨failed, -⟩ | running
    · cases failed.symm.trans pending
    · cases running.symm.trans pending
  -- Except while the playbook runs, every start of a job that failed or runs is counted.
  have settled : Settled s.job s.starts s.lost →
      Settled { s.job with status := .pending } s.starts s.lost := by
    intro before
    refine (settled_unfinished (Or.inl rfl)).mpr ?_
    rcases again with ⟨failed, few⟩ | running
    · exact ⟨few.trans (le_max_left _ _), ((settled_failed failed).mp before).starts⟩
    · obtain ⟨few, counted⟩ := (settled_unfinished (Or.inr running)).mp before
      exact ⟨few, counted⟩
  refine ⟨inv.limit, inv.entry, fun queued => (unqueued queued).elim, ?_⟩
  have phase := inv.phase
  show AtPhase _ s.starts s.lost s.worker
  cases worker : s.worker with
  | none =>
    rw [worker] at phase
    exact settled phase
  | some stands =>
    rw [worker] at phase
    cases stands with
    | loaded document => exact ⟨rfl, settled phase.2⟩
    | building retries => exact ⟨phase.1, Or.inl rfl, settled phase.2.2⟩
    | playing retries =>
      obtain ⟨same, -, few, counted⟩ := phase
      exact ⟨same, Or.inl rfl, few, counted⟩
    | succeeded retries =>
      -- A run that is marked Success is not taken up again.
      obtain ⟨-, success, -⟩ := phase
      rcases again with ⟨failed, -⟩ | running
      · cases failed.symm.trans success
      · cases running.symm.trans success
    | failing => exact settled phase

theorem cron_inv (inv : Inv maxRetries s) (timeout : ℤ) (superseded : Bool) :
    Inv maxRetries (s.cron timeout superseded) := by
  rcases cron_cases s timeout superseded with same | ⟨pending, enqueued⟩ | ⟨again, retried⟩
  · rw [same]
    exact inv
  · rw [enqueued]
    exact enqueue_inv inv pending
  · rw [retried]
    exact enqueue_inv (pending_inv inv again) rfl

/-! ### The worker -/

theorem leave_inv (inv : Inv maxRetries s) (settled : Settled s.job s.starts s.lost) :
    Inv maxRetries s.leave :=
  ⟨inv.limit, fun held => (held rfl).elim, nofun, settled⟩

theorem worker_inv {job : Job} {stands : Phase} {starts : ℕ} (inv : Inv maxRetries s)
    (held : s.worker ≠ none) (limit : job.maxRetries = s.job.maxRetries)
    (phase : AtPhase job starts s.lost (some stands)) :
    Inv maxRetries { s with job := job, worker := some stands, starts := starts } := by
  refine ⟨limit.trans inv.limit, fun _ => inv.entry held, ?_, phase⟩
  intro queued
  have queued : s.entry = .queued := queued
  rw [inv.entry held] at queued
  cases queued

theorem execute_inv {timeout : ℤ} {refused : Bool} (inv : Inv maxRetries s)
    (taken : step s (.execute timeout refused) = some s') : Inv maxRetries s' := by
  have phase := inv.phase
  delta step at taken
  simp only at taken
  split at taken
  · rename_i document worker
    rw [worker] at phase
    obtain ⟨pending, settled⟩ := phase
    have held : s.worker ≠ none := by simp only [worker, ne_eq, reduceCtorEq, not_false_eq_true]
    split at taken
    · obtain rfl := Option.some.inj taken
      exact leave_inv inv settled
    split at taken
    · obtain rfl := Option.some.inj taken
      exact leave_inv inv settled
    · obtain rfl := Option.some.inj taken
      obtain ⟨few, counted⟩ := (settled_unfinished (Or.inl pending)).mp settled
      exact worker_inv inv held rfl
        ⟨rfl, Or.inr rfl, (settled_unfinished (Or.inr rfl)).mpr ⟨few, counted⟩⟩
  · cases taken

theorem build_inv {raises : Bool} (inv : Inv maxRetries s) (taken : step s (.build raises) = some s') :
    Inv maxRetries s' := by
  have phase := inv.phase
  delta step at taken
  simp only at taken
  split at taken
  · rename_i retries worker
    rw [worker] at phase
    obtain ⟨same, unfinished, settled⟩ := phase
    have held : s.worker ≠ none := by simp only [worker, ne_eq, reduceCtorEq, not_false_eq_true]
    have bounded := (settled_unfinished unfinished).mp settled
    split at taken
    · obtain rfl := Option.some.inj taken
      exact worker_inv inv held rfl (bounded.more.markFailed same)
    · obtain rfl := Option.some.inj taken
      refine worker_inv inv held rfl ⟨same, unfinished, bounded.retries, ?_⟩
      have counted := bounded.starts
      omega
  · cases taken

theorem play_inv {outcome : Outcome} (inv : Inv maxRetries s) (taken : step s (.play outcome) = some s') :
    Inv maxRetries s' := by
  have phase := inv.phase
  delta step at taken
  simp only at taken
  split at taken
  · rename_i retries worker
    rw [worker] at phase
    obtain ⟨same, unfinished, bounded⟩ := phase
    have held : s.worker ≠ none := by simp only [worker, ne_eq, reduceCtorEq, not_false_eq_true]
    cases outcome with
    | success =>
      obtain rfl := Option.some.inj taken
      refine worker_inv inv held rfl ⟨same, rfl, (settled_success rfl).mpr ?_⟩
      exact ⟨bounded.retries, bounded.starts⟩
    | failed =>
      obtain rfl := Option.some.inj taken
      exact worker_inv inv held rfl (bounded.markFailed same)
    | raised =>
      obtain rfl := Option.some.inj taken
      exact worker_inv inv held rfl (bounded.markFailed same)
  · cases taken

theorem callback_inv {raises : Bool} (inv : Inv maxRetries s) (taken : step s (.callback raises) = some s') :
    Inv maxRetries s' := by
  have phase := inv.phase
  delta step at taken
  simp only at taken
  split at taken
  · rename_i retries worker
    rw [worker] at phase
    obtain ⟨same, success, settled⟩ := phase
    have held : s.worker ≠ none := by simp only [worker, ne_eq, reduceCtorEq, not_false_eq_true]
    split at taken
    · obtain rfl := Option.some.inj taken
      exact worker_inv inv held rfl (((settled_success success).mp settled).markFailed same)
    · obtain rfl := Option.some.inj taken
      exact leave_inv inv settled
  · rename_i worker
    rw [worker] at phase
    obtain rfl := Option.some.inj taken
    exact leave_inv inv phase
  · cases taken

theorem gone_inv {lost : ℕ} (inv : Inv maxRetries s) (held : s.worker ≠ none)
    (settled : Settled s.job s.starts lost) : Inv maxRetries { s with worker := none, lost := lost } := by
  refine ⟨inv.limit, fun here => (here rfl).elim, ?_, settled⟩
  intro queued
  have queued : s.entry = .queued := queued
  rw [inv.entry held] at queued
  cases queued

theorem vanish_inv (inv : Inv maxRetries s) (taken : step s .vanish = some s') : Inv maxRetries s' := by
  have phase := inv.phase
  delta step at taken
  simp only at taken
  cases worker : s.worker with
  | none =>
    rw [worker] at taken
    cases taken
  | some stands =>
    rw [worker] at phase taken
    have held : s.worker ≠ none := by simp only [worker, ne_eq, reduceCtorEq, not_false_eq_true]
    cases stands with
    | loaded document =>
      obtain rfl := Option.some.inj taken
      exact gone_inv inv held phase.2
    | building retries =>
      obtain rfl := Option.some.inj taken
      exact gone_inv inv held phase.2.2
    | playing retries =>
      obtain rfl := Option.some.inj taken
      obtain ⟨-, unfinished, few, counted⟩ := phase
      refine gone_inv inv held ((settled_unfinished unfinished).mpr ⟨few, ?_⟩)
      omega
    | succeeded retries =>
      obtain rfl := Option.some.inj taken
      exact gone_inv inv held phase.2.2
    | failing =>
      obtain rfl := Option.some.inj taken
      exact gone_inv inv held phase

theorem step_inv {action : Action} (inv : Inv maxRetries s) (taken : step s action = some s') :
    Inv maxRetries s' := by
  cases action with
  | pass seconds =>
    obtain rfl := Option.some.inj taken
    exact ⟨inv.limit, inv.entry, inv.queued, inv.phase⟩
  | take =>
    obtain ⟨queued, result⟩ := Option.ite_none_right_eq_some.mp taken
    obtain rfl := Option.some.inj result
    have pending := inv.queued queued
    refine ⟨inv.limit, fun _ => rfl, nofun, ?_⟩
    have idle : s.worker = none := by
      by_contra held
      cases queued.symm.trans (inv.entry held)
    have phase := inv.phase
    rw [idle] at phase
    exact ⟨pending, phase⟩
  | execute timeout refused => exact execute_inv inv taken
  | build raises => exact build_inv inv taken
  | play outcome => exact play_inv inv taken
  | callback raises => exact callback_inv inv taken
  | vanish => exact vanish_inv inv taken
  | cleanup =>
    obtain ⟨⟨idle, -⟩, result⟩ := Option.ite_none_right_eq_some.mp taken
    obtain rfl := Option.some.inj result
    exact ⟨inv.limit, fun held => (held idle).elim, nofun, inv.phase⟩
  | cron timeout superseded =>
    obtain rfl := Option.some.inj taken
    exact cron_inv inv timeout superseded

theorem reached_inv {now : ℤ} (reached : Reaches step anyStep (State.start now maxRetries) s) :
    Inv maxRetries s :=
  reached.invariant (Inv maxRetries) (Inv.start now maxRetries) fun inv _ taken => step_inv inv taken

end Runs

/-- A run of the playbook with how it ends. -/
def played (outcome : Outcome) : List Action :=
  [.take, .execute 0 false, .build false, .play outcome]

/-- The playbook fails, its retry succeeds and the callback fails; there are no retries left. -/
def retried : List Action :=
  played .failed ++ [Action.callback false, .pass 300, .cron 0 false] ++ played .success ++
    [Action.callback true, .callback false, .pass 300, .cron 0 false]

/-- The worker vanishes while the playbook runs; the cron finds the job stale. -/
def vanished : List Action :=
  [.take, .execute 0 false, .build false, .vanish, .cleanup, .pass 1801, .cron 0 false, .take, .execute 0 false,
    .build false]

end SuiteCloud.Provisioning.ServerJobs
