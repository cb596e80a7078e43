/-
**Configuration pushes of a cluster: the mark, the queue, the lock and the snapshots.**

`suite_cloud/mail/cluster/push.py`, `StalwartCluster.push_config` and `push_lock`. Transactions commit
changes; those that called `resync_cluster_after_commit` then run their hook, which sets the pending
mark if it is free and enqueues a push. A queued push deletes the mark when it starts, waits for the
cluster's lock, and only then reads. Every other path that pushes (`Path`) has read before it asks for
the lock, and plans from the view that read opened.

A snapshot is the list of the commits it sees, newest first. `plans` records the plans the cluster
got, newest first: the last one is what it holds.
-/

import Mathlib.Logic.Function.Basic
import SuiteCloud.Library.Maps
import SuiteCloud.Library.ReadView
import SuiteCloud.Library.Transition

namespace SuiteCloud.Mail.Cluster.Push

open SuiteCloud.Library

/-- A committed change: the transaction, where it asked for a push, and whether the cluster is Active
with its credentials from then on. -/
structure Commit (Tx : Type) where
  tx : Option Tx
  active : Bool
  deriving DecidableEq

/-- The commits a read sees, newest first. -/
abbrev Snapshot (Tx : Type) := List (Commit Tx)

variable {Tx : Type}

/-- The snapshot includes a transaction's change. -/
def Includes (tx : Tx) (snapshot : Snapshot Tx) : Prop := ∃ commit ∈ snapshot, commit.tx = some tx

/-- The cluster is Active and has its credentials. -/
def isActive (snapshot : Snapshot Tx) : Bool := snapshot.head?.any (·.active)

/-- What pushes a cluster's configuration. -/
inductive Path
  | resyncClusterJob
  | syncConfig
  | applyPoolChangesJob
  | startPushJob
  | checkGateway
  | initialConfig
  deriving DecidableEq

/-- Where a transaction's after-commit hook stands. -/
inductive Hook
  /-- Committed; the hook runs next. -/
  | waiting
  /-- It set the mark and enqueues next. -/
  | marked
  | done
  deriving DecidableEq

/-- Where a push stands. -/
inductive Phase (Tx : Type)
  /-- In the queue. -/
  | queued
  /-- It runs and does not hold the lock. -/
  | waiting (view : ReadView (Snapshot Tx))
  | locked (view : ReadView (Snapshot Tx))
  /-- It left the lock, having planned from the snapshot if it was to. -/
  | finished (snapshot : Snapshot Tx)
  /-- It planned nothing: the cluster is not active, the lock was refused, or the push failed. -/
  | stopped

structure Job (Tx : Type) where
  path : Path
  phase : Phase Tx

structure State (Tx P : Type) where
  history : Snapshot Tx
  mark : Bool
  hooks : Tx → Option Hook
  jobs : P → Option (Job Tx)
  holder : Option P
  plans : List (P × Snapshot Tx)

variable {P : Type}

def State.initial : State Tx P := ⟨[], false, fun _ => none, fun _ => none, none, []⟩

inductive Action (Tx P : Type)
  /-- A transaction that called `resync_cluster_after_commit` commits. -/
  | commit (tx : Tx) (active : Bool)
  /-- Any other transaction commits. -/
  | write (active : Bool)
  /-- `queue_cluster_push`: the mark is set, unless it is. -/
  | mark (tx : Tx)
  | enqueue (tx : Tx) (job : P)
  /-- The mark's time to live ends. -/
  | expire
  /-- A worker starts a queued push, which deletes the mark. -/
  | start (job : P)
  /-- One of the other paths begins. -/
  | begin (job : P) (path : Path)
  /-- A plain read. -/
  | read (job : P)
  /-- A push ends without a plan. -/
  | stop (job : P)
  | lock (job : P)
  /-- The plan is rendered and applied, and the lock released. -/
  | finish (job : P)

variable [DecidableEq Tx] [DecidableEq P]

/-- Moves a push on. -/
def State.setPhase (s : State Tx P) (id : P) (job : Job Tx) (phase : Phase Tx) : State Tx P :=
  { s with jobs := Function.update s.jobs id (some { job with phase := phase }) }

/-- A queued push asks for the lock before it reads anything, every other path after it has. -/
def mayLock (path : Path) (view : ReadView (Snapshot Tx)) : Bool :=
  if path = .resyncClusterJob then !view.isOpened else view.isOpened

/-- **One step of the system.** -/
def step (s : State Tx P) : Action Tx P → Option (State Tx P)
  | .commit tx active =>
      match s.hooks tx with
      | some _ => none
      | none => some { s with
          history := ⟨some tx, active⟩ :: s.history
          hooks := Function.update s.hooks tx (some .waiting) }
  | .write active => some { s with history := ⟨none, active⟩ :: s.history }
  | .mark tx =>
      match s.hooks tx with
      | some .waiting => some { s with
          mark := true
          hooks := Function.update s.hooks tx (some (if s.mark then .done else .marked)) }
      | _ => none
  | .enqueue tx id =>
      match s.hooks tx, s.jobs id with
      | some .marked, none => some { s with
          hooks := Function.update s.hooks tx (some .done)
          jobs := Function.update s.jobs id (some ⟨.resyncClusterJob, .queued⟩) }
      | _, _ => none
  | .expire => some { s with mark := false }
  | .start id =>
      match s.jobs id with
      | some ⟨path, .queued⟩ =>
          some { s.setPhase id ⟨path, .queued⟩ (.waiting .unopened) with mark := false }
      | _ => none
  | .begin id path =>
      match s.jobs id with
      | some _ => none
      | none =>
          if path = .resyncClusterJob then none
          else some { s with
            jobs := Function.update s.jobs id (some ⟨path, .waiting .unopened⟩) }
  | .read id =>
      match s.jobs id with
      | some ⟨path, .waiting view⟩ =>
          -- A queued push reads nothing before it has the lock.
          if path = .resyncClusterJob then none
          else some (s.setPhase id ⟨path, .waiting view⟩ (.waiting (view.read s.history)))
      | some ⟨path, .locked view⟩ =>
          some (s.setPhase id ⟨path, .locked view⟩ (.locked (view.read s.history)))
      | _ => none
  | .stop id =>
      match s.jobs id with
      | some ⟨path, .waiting view⟩ => some (s.setPhase id ⟨path, .waiting view⟩ .stopped)
      | some ⟨path, .locked view⟩ =>
          some { s.setPhase id ⟨path, .locked view⟩ .stopped with holder := none }
      | _ => none
  | .lock id =>
      match s.jobs id, s.holder with
      | some ⟨path, .waiting view⟩, none =>
          if mayLock path view then
            some { s.setPhase id ⟨path, .waiting view⟩ (.locked view) with holder := some id }
          else none
      | _, _ => none
  | .finish id =>
      match s.jobs id with
      | some ⟨path, .locked (.opened snapshot)⟩ =>
          some { s.setPhase id ⟨path, .locked (.opened snapshot)⟩ (.finished snapshot) with
            holder := none
            -- The other paths have checked the status before they asked for the lock.
            plans := if path = .resyncClusterJob ∧ isActive snapshot = false then s.plans
              else (id, snapshot) :: s.plans }
      | _ => none

/-! ### What a step does -/

/-- **The steps**, each with what it needs and what it leaves. -/
inductive Steps (s : State Tx P) : Action Tx P → State Tx P → Prop
  | commit (tx : Tx) (active : Bool) : s.hooks tx = none →
      Steps s (.commit tx active) { s with
        history := ⟨some tx, active⟩ :: s.history
        hooks := Function.update s.hooks tx (some .waiting) }
  | write (active : Bool) : Steps s (.write active) { s with history := ⟨none, active⟩ :: s.history }
  | mark (tx : Tx) : s.hooks tx = some .waiting →
      Steps s (.mark tx) { s with
        mark := true
        hooks := Function.update s.hooks tx (some (if s.mark then .done else .marked)) }
  | enqueue (tx : Tx) (id : P) : s.hooks tx = some .marked → s.jobs id = none →
      Steps s (.enqueue tx id) { s with
        hooks := Function.update s.hooks tx (some .done)
        jobs := Function.update s.jobs id (some ⟨.resyncClusterJob, .queued⟩) }
  | expire : Steps s .expire { s with mark := false }
  | start (id : P) (path : Path) : s.jobs id = some ⟨path, .queued⟩ →
      Steps s (.start id)
        { s.setPhase id ⟨path, .queued⟩ (.waiting .unopened) with mark := false }
  | begin (id : P) (path : Path) : s.jobs id = none → path ≠ .resyncClusterJob →
      Steps s (.begin id path) { s with
        jobs := Function.update s.jobs id (some ⟨path, .waiting .unopened⟩) }
  | readEarly (id : P) (path : Path) (view : ReadView (Snapshot Tx)) :
      s.jobs id = some ⟨path, .waiting view⟩ → path ≠ .resyncClusterJob →
      Steps s (.read id) (s.setPhase id ⟨path, .waiting view⟩ (.waiting (view.read s.history)))
  | readLocked (id : P) (path : Path) (view : ReadView (Snapshot Tx)) :
      s.jobs id = some ⟨path, .locked view⟩ →
      Steps s (.read id) (s.setPhase id ⟨path, .locked view⟩ (.locked (view.read s.history)))
  | stop (id : P) (path : Path) (view : ReadView (Snapshot Tx)) :
      s.jobs id = some ⟨path, .waiting view⟩ →
      Steps s (.stop id) (s.setPhase id ⟨path, .waiting view⟩ .stopped)
  | stopLocked (id : P) (path : Path) (view : ReadView (Snapshot Tx)) :
      s.jobs id = some ⟨path, .locked view⟩ →
      Steps s (.stop id) { s.setPhase id ⟨path, .locked view⟩ .stopped with holder := none }
  | lock (id : P) (path : Path) (view : ReadView (Snapshot Tx)) :
      s.jobs id = some ⟨path, .waiting view⟩ → s.holder = none → mayLock path view = true →
      Steps s (.lock id)
        { s.setPhase id ⟨path, .waiting view⟩ (.locked view) with holder := some id }
  | finish (id : P) (path : Path) (snapshot : Snapshot Tx) :
      s.jobs id = some ⟨path, .locked (.opened snapshot)⟩ →
      Steps s (.finish id)
        { s.setPhase id ⟨path, .locked (.opened snapshot)⟩ (.finished snapshot) with
          holder := none
          plans := if path = .resyncClusterJob ∧ isActive snapshot = false then s.plans
            else (id, snapshot) :: s.plans }

theorem steps_of_step {s s' : State Tx P} {action : Action Tx P} (taken : step s action = some s') :
    Steps s action s' := by
  cases action with
  | commit tx active =>
    simp only [step] at taken
    cases here : s.hooks tx with
    | some hook => rw [here] at taken; cases taken
    | none =>
      rw [here] at taken
      obtain rfl := Option.some.inj taken
      exact .commit tx active here
  | write active =>
    obtain rfl := Option.some.inj taken
    exact .write active
  | mark tx =>
    simp only [step] at taken
    split at taken
    case h_1 here =>
      obtain rfl := Option.some.inj taken
      exact .mark tx here
    case h_2 => cases taken
  | enqueue tx id =>
    simp only [step] at taken
    split at taken
    case h_1 here free =>
      obtain rfl := Option.some.inj taken
      exact .enqueue tx id here free
    case h_2 => cases taken
  | expire =>
    obtain rfl := Option.some.inj taken
    exact .expire
  | start id =>
    simp only [step] at taken
    split at taken
    case h_1 path here =>
      obtain rfl := Option.some.inj taken
      exact .start id path here
    case h_2 => cases taken
  | begin id path =>
    simp only [step] at taken
    cases here : s.jobs id with
    | some job => rw [here] at taken; cases taken
    | none =>
      simp only [here] at taken
      by_cases queued : path = .resyncClusterJob
      · rw [if_pos queued] at taken
        cases taken
      · rw [if_neg queued] at taken
        obtain rfl := Option.some.inj taken
        exact .begin id path here queued
  | read id =>
    simp only [step] at taken
    split at taken
    case h_1 path view here =>
      by_cases queued : path = .resyncClusterJob
      · rw [if_pos queued] at taken
        cases taken
      · rw [if_neg queued] at taken
        obtain rfl := Option.some.inj taken
        exact .readEarly id path view here queued
    case h_2 path view here =>
      obtain rfl := Option.some.inj taken
      exact .readLocked id path view here
    case h_3 => cases taken
  | stop id =>
    simp only [step] at taken
    split at taken
    case h_1 path view here =>
      obtain rfl := Option.some.inj taken
      exact .stop id path view here
    case h_2 path view here =>
      obtain rfl := Option.some.inj taken
      exact .stopLocked id path view here
    case h_3 => cases taken
  | lock id =>
    simp only [step] at taken
    split at taken
    case h_1 path view here free =>
      by_cases may : mayLock path view = true
      · rw [if_pos may] at taken
        obtain rfl := Option.some.inj taken
        exact .lock id path view here free may
      · rw [if_neg may] at taken
        cases taken
    case h_2 => cases taken
  | finish id =>
    simp only [step] at taken
    split at taken
    case h_1 path snapshot here =>
      obtain rfl := Option.some.inj taken
      exact .finish id path snapshot here
    case h_2 => cases taken

end SuiteCloud.Mail.Cluster.Push
