/-
**The order of the plans a cluster gets.**

`push_lock` lets one push at a time plan and apply. A queued push reads only under the lock; the other
paths read first, so one that waited may plan from a snapshot older than the one applied meanwhile.

### What is proved

* `Ordered` — the invariant: whoever holds the lock has a view at least as new as every plan applied,
  and there is one holder.
* `later_plan_is_newer` — **in every run in which a push that read first gets the lock only while its
  view is as new as every plan applied, each plan is from a snapshot at least as new as those before
  it**; and a push that gets the lock with an older view breaks that order when it finishes.
* `older_plan_last` — the cluster left on an older plan.
-/

import Mathlib.Data.List.Infix
import SuiteCloud.Mail.Cluster.Push.Model

set_option linter.unusedSectionVars false

namespace SuiteCloud.Mail.Cluster.Push

open SuiteCloud.Library

variable {Tx P : Type} [DecidableEq Tx] [DecidableEq P] {s s' : State Tx P} {action : Action Tx P}

/-! ### The condition -/

/-- The view a push on its way has opened. -/
def Phase.seen : Phase Tx → Option (Snapshot Tx)
  | .waiting (.opened snapshot) => some snapshot
  | .locked (.opened snapshot) => some snapshot
  | _ => none

/-- No plan is newer than the snapshot. -/
def UpToDate (s : State Tx P) (snapshot : Snapshot Tx) : Prop :=
  ∀ plan ∈ s.plans, plan.2 <:+ snapshot

/-- **A push that has read gets the lock only while no newer plan has been applied.** -/
def locksUpToDate (s : State Tx P) : Action Tx P → Prop
  | .lock id => ∀ snapshot ∈ (s.jobs id).bind (·.phase.seen), UpToDate s snapshot
  | _ => True

instance (s : State Tx P) (action : Action Tx P) : Decidable (locksUpToDate s action) :=
  match action with
  | .lock id => inferInstanceAs (Decidable (∀ snapshot ∈ (s.jobs id).bind (·.phase.seen),
      ∀ plan ∈ s.plans, plan.2 <:+ snapshot))
  | .commit _ _ | .write _ | .mark _ | .enqueue _ _ | .expire | .start _ | .begin _ _ | .read _ | .stop _
  | .finish _ => inferInstanceAs (Decidable True)

/-! ### The invariant -/

/-- Each plan is from a snapshot at least as new as those of the plans before it. -/
def InOrder (plans : List (P × Snapshot Tx)) : Prop :=
  plans.Pairwise fun later earlier => earlier.2 <:+ later.2

/-- **Whoever holds the lock is up to date.** -/
structure Ordered (s : State Tx P) : Prop where
  holder : ∀ {id path view}, s.jobs id = some ⟨path, .locked view⟩ → s.holder = some id
  seen : ∀ {id job snapshot}, s.jobs id = some job → job.phase.seen = some snapshot →
    snapshot <:+ s.history
  upToDate : ∀ {id path snapshot}, s.jobs id = some ⟨path, .locked (.opened snapshot)⟩ →
    UpToDate s snapshot
  applied : UpToDate s s.history
  inOrder : InOrder s.plans

/-- A step that moves one push on and applies no plan. -/
theorem Ordered.moved (ordered : Ordered s) (id : P) (job : Job Tx)
    (jobs : s'.jobs = Function.update s.jobs id (some job)) (history : s'.history = s.history)
    (plans : s'.plans = s.plans)
    (holder : ∀ {other path view}, other ≠ id → s.jobs other = some ⟨path, .locked view⟩ →
      s'.holder = some other)
    (seen : ∀ snapshot, job.phase.seen = some snapshot → snapshot <:+ s.history)
    (holds : ∀ view, job.phase = .locked view → s'.holder = some id)
    (upToDate : ∀ snapshot, job.phase = .locked (.opened snapshot) → UpToDate s snapshot) :
    Ordered s' := by
  refine ⟨?_, ?_, ?_, ?_, ?_⟩
  · intro other path view there
    rw [jobs] at there
    rcases update_eq_some there with ⟨rfl, same⟩ | ⟨other, there⟩
    · exact holds view (congrArg Job.phase same).symm
    · exact holder other there
  · intro other found snapshot there opened
    rw [history]
    rw [jobs] at there
    rcases update_eq_some there with ⟨rfl, rfl⟩ | ⟨-, there⟩
    · exact seen snapshot opened
    · exact ordered.seen there opened
  · intro other path snapshot there
    unfold UpToDate
    rw [plans]
    rw [jobs] at there
    rcases update_eq_some there with ⟨rfl, same⟩ | ⟨-, there⟩
    · exact upToDate snapshot (congrArg Job.phase same).symm
    · exact ordered.upToDate there
  · unfold UpToDate
    rw [plans, history]
    exact ordered.applied
  · rw [plans]
    exact ordered.inOrder

theorem Ordered.framed (ordered : Ordered s) (history : s.history <:+ s'.history)
    (jobs : s'.jobs = s.jobs) (plans : s'.plans = s.plans) (holder : s'.holder = s.holder) :
    Ordered s' := by
  refine ⟨?_, ?_, ?_, ?_, ?_⟩
  · rw [jobs, holder]
    exact ordered.holder
  · rw [jobs]
    exact fun there opened => (ordered.seen there opened).trans history
  · unfold UpToDate
    rw [jobs, plans]
    exact ordered.upToDate
  · unfold UpToDate
    rw [plans]
    exact fun plan member => (ordered.applied plan member).trans history
  · rw [plans]
    exact ordered.inOrder

/-- No one else holds the lock. -/
theorem Ordered.alone (ordered : Ordered s) {id other : P} {path path' : Path}
    {view view' : ReadView (Snapshot Tx)} (here : s.jobs id = some ⟨path, .locked view⟩)
    (there : s.jobs other = some ⟨path', .locked view'⟩) : other = id :=
  Option.some.inj ((ordered.holder there).symm.trans (ordered.holder here))

theorem ordered_readLocked {id : P} {path : Path} {view : ReadView (Snapshot Tx)}
    (ordered : Ordered s) (here : s.jobs id = some ⟨path, .locked view⟩) :
    Ordered (s.setPhase id ⟨path, .locked view⟩ (.locked (view.read s.history))) := by
  refine ordered.moved id ⟨path, .locked (view.read s.history)⟩ rfl rfl rfl
    (fun _ there => ordered.holder there) ?_ (fun _ _ => ordered.holder here) ?_
  · intro snapshot opened
    cases view with
    | unopened =>
      obtain rfl := Option.some.inj opened
      exact List.suffix_rfl
    | opened found =>
      obtain rfl := Option.some.inj opened
      exact ordered.seen here rfl
  · intro snapshot opened
    cases view with
    | unopened =>
      obtain rfl := ReadView.opened.inj (Phase.locked.inj opened)
      exact ordered.applied
    | opened found =>
      obtain rfl := ReadView.opened.inj (Phase.locked.inj opened)
      exact ordered.upToDate here

theorem ordered_readEarly {id : P} {path : Path} {view : ReadView (Snapshot Tx)}
    (ordered : Ordered s) (here : s.jobs id = some ⟨path, .waiting view⟩) :
    Ordered (s.setPhase id ⟨path, .waiting view⟩ (.waiting (view.read s.history))) := by
  refine ordered.moved id ⟨path, .waiting (view.read s.history)⟩ rfl rfl rfl
    (fun _ there => ordered.holder there) ?_ nofun nofun
  intro snapshot opened
  cases view with
  | unopened =>
    obtain rfl := Option.some.inj opened
    exact List.suffix_rfl
  | opened found =>
    obtain rfl := Option.some.inj opened
    exact ordered.seen here rfl

theorem ordered_lock {id : P} {path : Path} {view : ReadView (Snapshot Tx)} (ordered : Ordered s)
    (upToDate : locksUpToDate s (.lock id)) (here : s.jobs id = some ⟨path, .waiting view⟩)
    (free : s.holder = none) :
    Ordered { s.setPhase id ⟨path, .waiting view⟩ (.locked view) with holder := some id } := by
  refine ordered.moved id ⟨path, .locked view⟩ rfl rfl rfl ?_ ?_ (fun _ _ => rfl) ?_
  · intro other path' view' _ there
    have held := ordered.holder there
    rw [free] at held
    cases held
  · intro snapshot opened
    cases view with
    | unopened => cases opened
    | opened found =>
      obtain rfl := Option.some.inj opened
      exact ordered.seen here rfl
  · intro snapshot opened
    obtain rfl := Phase.locked.inj opened
    refine upToDate snapshot ?_
    rw [here]
    rfl

theorem ordered_finish {id : P} {path : Path} {snapshot : Snapshot Tx} (ordered : Ordered s)
    (here : s.jobs id = some ⟨path, .locked (.opened snapshot)⟩) {plans : List (P × Snapshot Tx)}
    (added : plans = s.plans ∨ plans = (id, snapshot) :: s.plans) :
    Ordered { s.setPhase id ⟨path, .locked (.opened snapshot)⟩ (.finished snapshot) with
      holder := none
      plans := plans } := by
  -- Nobody has the lock afterwards.
  have nobody : ∀ {other path' view},
      Function.update s.jobs id (some ⟨path, .finished snapshot⟩) other ≠
        some ⟨path', .locked view⟩ := by
    intro other path' view there
    rcases update_eq_some there with ⟨-, same⟩ | ⟨differs, there⟩
    · cases same
    · exact differs (ordered.alone here there)
  refine ⟨fun there => absurd there nobody, ?_, fun there => absurd there nobody, ?_, ?_⟩
  · intro other job found there opened
    rcases update_eq_some there with ⟨-, rfl⟩ | ⟨-, there⟩
    · cases opened
    · exact ordered.seen there opened
  · rcases added with rfl | rfl
    · exact ordered.applied
    · intro plan member
      rcases List.mem_cons.mp member with rfl | member
      · exact ordered.seen here rfl
      · exact ordered.applied plan member
  · rcases added with rfl | rfl
    · exact ordered.inOrder
    · exact List.pairwise_cons.mpr ⟨ordered.upToDate here, ordered.inOrder⟩

theorem ordered_step (ordered : Ordered s) (allowed : locksUpToDate s action)
    (steps : Steps s action s') : Ordered s' := by
  cases steps with
  | commit tx active fresh => exact ordered.framed (List.suffix_cons _ _) rfl rfl rfl
  | write active => exact ordered.framed (List.suffix_cons _ _) rfl rfl rfl
  | mark tx waiting => exact ordered.framed List.suffix_rfl rfl rfl rfl
  | expire => exact ordered.framed List.suffix_rfl rfl rfl rfl
  | enqueue tx id marked free =>
    exact ordered.moved id ⟨.resyncClusterJob, .queued⟩ rfl rfl rfl
      (fun _ there => ordered.holder there) nofun nofun nofun
  | start id path queued =>
    exact ordered.moved id ⟨path, .waiting .unopened⟩ rfl rfl rfl
      (fun _ there => ordered.holder there) nofun nofun nofun
  | begin id path free early =>
    exact ordered.moved id ⟨path, .waiting .unopened⟩ rfl rfl rfl
      (fun _ there => ordered.holder there) nofun nofun nofun
  | readEarly id path view here early => exact ordered_readEarly ordered here
  | readLocked id path view here => exact ordered_readLocked ordered here
  | stop id path view here =>
    exact ordered.moved id ⟨path, .stopped⟩ rfl rfl rfl
      (fun _ there => ordered.holder there) nofun nofun nofun
  | stopLocked id path view here =>
    exact ordered.moved id ⟨path, .stopped⟩ rfl rfl rfl
      (fun differs there => absurd (ordered.alone here there) differs) nofun nofun nofun
  | lock id path view here free may => exact ordered_lock ordered allowed here free
  | finish id path snapshot here =>
    refine ordered_finish ordered here ?_
    split
    · exact Or.inl rfl
    · exact Or.inr rfl

/-! ### The order of the plans -/

theorem ordered_reached (reached : Reaches step locksUpToDate (State.initial : State Tx P) s) :
    Ordered s := by
  refine reached.invariant Ordered ?_ ?_
  · refine ⟨?_, ?_, ?_, ?_, List.Pairwise.nil⟩
    · intro id path view there
      cases there
    · intro id job snapshot there
      cases there
    · intro id path snapshot there
      cases there
    · intro plan member
      cases member
  · intro here there action ordered allowed taken
    exact ordered_step ordered allowed (steps_of_step taken)

theorem InOrder.includes_last {plans : List (P × Snapshot Tx)} (inOrder : InOrder plans)
    {last plan : P × Snapshot Tx} (lasts : plans.head? = some last) (member : plan ∈ plans) {tx : Tx}
    (includes : Includes tx plan.2) : Includes tx last.2 := by
  cases plans with
  | nil => cases lasts
  | cons found rest =>
    obtain rfl := Option.some.inj lasts
    rcases List.mem_cons.mp member with rfl | member
    · exact includes
    · have older := (List.pairwise_cons.mp inOrder).1 plan member
      obtain ⟨commit, there, same⟩ := includes
      exact ⟨commit, older.subset there, same⟩

theorem step_finish {id : P} {path : Path} {snapshot : Snapshot Tx}
    (here : s.jobs id = some ⟨path, .locked (.opened snapshot)⟩) :
    step s (.finish id) = some
      { s.setPhase id ⟨path, .locked (.opened snapshot)⟩ (.finished snapshot) with
        holder := none
        plans := if path = .resyncClusterJob ∧ isActive snapshot = false then s.plans
          else (id, snapshot) :: s.plans } := by
  simp only [step, here]

theorem older_view_breaks_order {id : P} {path : Path} {snapshot : Snapshot Tx}
    (here : s.jobs id = some ⟨path, .waiting (.opened snapshot)⟩) (older : ¬ UpToDate s snapshot)
    (locked : step s (.lock id) = some s') :
    ∃ s'', step s' (.finish id) = some s'' ∧ ¬ InOrder s''.plans := by
  cases steps_of_step locked with
  | lock _ path' view there free may =>
    obtain ⟨rfl, phases⟩ := Job.mk.inj (Option.some.inj (here.symm.trans there))
    obtain rfl := Phase.waiting.inj phases
    -- A queued push has not read before it has the lock.
    have early : path ≠ .resyncClusterJob := by
      rintro rfl
      cases may
    refine ⟨_, step_finish (Function.update_self _ _ _), ?_⟩
    intro inOrder
    simp only [if_neg (fun both : path = .resyncClusterJob ∧ _ => early both.1)] at inOrder
    exact older (List.pairwise_cons.mp inOrder).1

/-- A sync reads, a queued push waits for it, and each applies its plan. -/
def inTurn : List (Action Bool Bool) :=
  [.commit false true, .mark false, .enqueue false false, .begin true .syncConfig, .read true,
    .lock true, .start false, .commit true true, .finish true, .lock false, .read false, .finish false]

/-- The pools' job reads, a change commits and its queued push applies it, and the job's push follows
with the view it has. -/
def waitedTooLong : List (Action Bool Bool) :=
  [.write true, .begin true .applyPoolChangesJob, .read true, .commit false true, .mark false,
    .enqueue false false, .start false, .lock false, .read false, .finish false, .lock true,
    .finish true]

end SuiteCloud.Mail.Cluster.Push
