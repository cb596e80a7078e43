/-
**A queued push covers every committed change.**

Any number of transactions and queued pushes, in any interleaving, with a mark that may expire at any
time and with the other paths' pushes, which may fail, in between.

### What is proved

* `mark_covered` — **while the mark is set, a push is on its way that has not started**: its hook is
  about to enqueue it, or it is in the queue. A push deletes the mark when it starts.
* `Covering` — every change whose hook has run is in the snapshot of some queued push, or one is on
  its way that has not read yet.
* `queued_push_covers` — when no hook is left to run and no queued push has not finished, each change
  is in the snapshot of one of them, which planned from it if it shows the cluster active.
* `inactive_cluster_not_planned` — a cluster that is not active is not planned for.
-/

import SuiteCloud.Mail.Cluster.Push.Model

set_option linter.unusedSectionVars false

namespace SuiteCloud.Mail.Cluster.Push

open SuiteCloud.Library

variable {Tx P : Type} [DecidableEq Tx] [DecidableEq P] {s s' : State Tx P} {action : Action Tx P}

/-! ### What a push has read -/

/-- The push is on its way and has read nothing. -/
def Phase.unread : Phase Tx → Bool
  | .queued => true
  | .waiting _ => true
  | .locked view => !view.isOpened
  | .finished _ => false
  | .stopped => false

/-- The snapshot a push has under the lock, or had. -/
def Phase.snapshot : Phase Tx → Option (Snapshot Tx)
  | .locked (.opened snapshot) => some snapshot
  | .finished snapshot => some snapshot
  | _ => none

/-- **No queued push fails.** -/
def queuedPushesRun (s : State Tx P) : Action Tx P → Prop
  | .stop id => ∀ job ∈ s.jobs id, job.path ≠ .resyncClusterJob
  | _ => True

instance (s : State Tx P) (action : Action Tx P) : Decidable (queuedPushesRun s action) :=
  match action with
  | .stop id => inferInstanceAs (Decidable (∀ job ∈ s.jobs id, job.path ≠ .resyncClusterJob))
  | .commit _ _ | .write _ | .mark _ | .enqueue _ _ | .expire | .start _ | .begin _ _ | .read _ | .lock _
  | .finish _ => inferInstanceAs (Decidable True)

theorem queuedPush_step {id : P} {phase : Phase Tx} (goesOn : queuedPushesRun s action)
    (steps : Steps s action s')
    (here : s.jobs id = some ⟨.resyncClusterJob, phase⟩) :
    ∃ phase', s'.jobs id = some ⟨.resyncClusterJob, phase'⟩ ∧
      (phase.unread = true → phase'.unread = true ∨ phase'.snapshot = some s'.history) ∧
      ∀ snapshot, phase.snapshot = some snapshot → phase'.snapshot = some snapshot := by
  -- A step that leaves this push alone.
  have untouched : s'.jobs id = s.jobs id → ∃ phase',
      s'.jobs id = some ⟨.resyncClusterJob, phase'⟩ ∧
      (phase.unread = true → phase'.unread = true ∨ phase'.snapshot = some s'.history) ∧
      ∀ snapshot, phase.snapshot = some snapshot → phase'.snapshot = some snapshot :=
    fun same => ⟨phase, same.trans here, Or.inl, fun _ read => read⟩
  cases steps with
  | commit tx active fresh => exact untouched rfl
  | write active => exact untouched rfl
  | mark tx waiting => exact untouched rfl
  | expire => exact untouched rfl
  | enqueue tx other marked free =>
    refine untouched (Function.update_of_ne ?_ _ _)
    rintro rfl
    rw [here] at free
    cases free
  | begin other path free early =>
    refine untouched (Function.update_of_ne ?_ _ _)
    rintro rfl
    rw [here] at free
    cases free
  | start other path queued =>
    by_cases same : id = other
    · subst same
      obtain ⟨rfl, rfl⟩ := Job.mk.inj (Option.some.inj (here.symm.trans queued))
      exact ⟨.waiting .unopened, Function.update_self _ _ _, fun _ => Or.inl rfl, nofun⟩
    · exact untouched (Function.update_of_ne same _ _)
  | readEarly other path view waiting early =>
    refine untouched (Function.update_of_ne ?_ _ _)
    rintro rfl
    exact early (Job.mk.inj (Option.some.inj (here.symm.trans waiting))).1.symm
  | stop other path view waiting =>
    refine untouched (Function.update_of_ne ?_ _ _)
    rintro rfl
    exact goesOn _ here rfl
  | stopLocked other path view locked =>
    refine untouched (Function.update_of_ne ?_ _ _)
    rintro rfl
    exact goesOn _ here rfl
  | readLocked other path view locked =>
    by_cases same : id = other
    · subst same
      obtain ⟨rfl, rfl⟩ := Job.mk.inj (Option.some.inj (here.symm.trans locked))
      refine ⟨.locked (view.read s.history), Function.update_self _ _ _, ?_, ?_⟩
      · intro unread
        cases view with
        | unopened => exact Or.inr rfl
        | opened snapshot => cases unread
      · intro snapshot read
        cases view with
        | unopened => cases read
        | opened found => exact read
    · exact untouched (Function.update_of_ne same _ _)
  | lock other path view waiting free may =>
    by_cases same : id = other
    · subst same
      obtain ⟨rfl, rfl⟩ := Job.mk.inj (Option.some.inj (here.symm.trans waiting))
      exact ⟨.locked view, Function.update_self _ _ _, fun _ => Or.inl may, nofun⟩
    · exact untouched (Function.update_of_ne same _ _)
  | finish other path snapshot locked =>
    by_cases same : id = other
    · subst same
      obtain ⟨rfl, rfl⟩ := Job.mk.inj (Option.some.inj (here.symm.trans locked))
      exact ⟨.finished snapshot, Function.update_self _ _ _, nofun, fun _ read => read⟩
    · exact untouched (Function.update_of_ne same _ _)

/-! ### The mark -/

/-- A push is about to be enqueued. -/
def Enqueuing (s : State Tx P) : Prop := ∃ tx, s.hooks tx = some .marked

/-- A push is in the queue. -/
def Queued (s : State Tx P) : Prop := ∃ id, s.jobs id = some ⟨.resyncClusterJob, .queued⟩

theorem enqueuing_step (steps : Steps s action s') (enqueuing : Enqueuing s) :
    Enqueuing s' ∨ Queued s' := by
  obtain ⟨tx, marked⟩ := enqueuing
  cases steps with
  | commit other active fresh =>
    refine Or.inl ⟨tx, (Function.update_of_ne ?_ _ _).trans marked⟩
    rintro rfl
    rw [marked] at fresh
    cases fresh
  | mark other waiting =>
    refine Or.inl ⟨tx, (Function.update_of_ne ?_ _ _).trans marked⟩
    rintro rfl
    rw [marked] at waiting
    cases waiting
  | enqueue other id marked' free => exact Or.inr ⟨id, Function.update_self _ _ _⟩
  | write active => exact Or.inl ⟨tx, marked⟩
  | expire => exact Or.inl ⟨tx, marked⟩
  | start id path queued => exact Or.inl ⟨tx, marked⟩
  | begin id path free early => exact Or.inl ⟨tx, marked⟩
  | readEarly id path view waiting early => exact Or.inl ⟨tx, marked⟩
  | readLocked id path view locked => exact Or.inl ⟨tx, marked⟩
  | stop id path view waiting => exact Or.inl ⟨tx, marked⟩
  | stopLocked id path view locked => exact Or.inl ⟨tx, marked⟩
  | lock id path view waiting free may => exact Or.inl ⟨tx, marked⟩
  | finish id path snapshot locked => exact Or.inl ⟨tx, marked⟩

theorem queued_step (steps : Steps s action s') (queued : Queued s) :
    Queued s' ∨ s'.mark = false := by
  obtain ⟨id, here⟩ := queued
  cases steps with
  | start other path waiting => exact Or.inr rfl
  | enqueue tx other marked free =>
    refine Or.inl ⟨id, (Function.update_of_ne ?_ _ _).trans here⟩
    rintro rfl
    rw [here] at free
    cases free
  | begin other path free early =>
    refine Or.inl ⟨id, (Function.update_of_ne ?_ _ _).trans here⟩
    rintro rfl
    rw [here] at free
    cases free
  | readEarly other path view waiting early =>
    refine Or.inl ⟨id, (Function.update_of_ne ?_ _ _).trans here⟩
    rintro rfl
    cases here.symm.trans waiting
  | readLocked other path view locked =>
    refine Or.inl ⟨id, (Function.update_of_ne ?_ _ _).trans here⟩
    rintro rfl
    cases here.symm.trans locked
  | stop other path view waiting =>
    refine Or.inl ⟨id, (Function.update_of_ne ?_ _ _).trans here⟩
    rintro rfl
    cases here.symm.trans waiting
  | stopLocked other path view locked =>
    refine Or.inl ⟨id, (Function.update_of_ne ?_ _ _).trans here⟩
    rintro rfl
    cases here.symm.trans locked
  | lock other path view waiting free may =>
    refine Or.inl ⟨id, (Function.update_of_ne ?_ _ _).trans here⟩
    rintro rfl
    cases here.symm.trans waiting
  | finish other path snapshot locked =>
    refine Or.inl ⟨id, (Function.update_of_ne ?_ _ _).trans here⟩
    rintro rfl
    cases here.symm.trans locked
  | commit tx active fresh => exact Or.inl ⟨id, here⟩
  | write active => exact Or.inl ⟨id, here⟩
  | mark tx waiting => exact Or.inl ⟨id, here⟩
  | expire => exact Or.inl ⟨id, here⟩

/-- **While the mark is set, a push is on its way that has not started.** -/
def MarkCovered (s : State Tx P) : Prop := s.mark = true → Enqueuing s ∨ Queued s

theorem mark_covered (steps : Steps s action s') (covered : MarkCovered s) : MarkCovered s' := by
  intro set
  -- Either the step set the mark, or it was set before.
  by_cases before : s.mark = true
  · rcases covered before with enqueuing | queued
    · exact enqueuing_step steps enqueuing
    · rcases queued_step steps queued with queued | unset
      · exact Or.inr queued
      · rw [unset] at set
        cases set
  · cases steps with
    | mark tx waiting =>
      refine Or.inl ⟨tx, ?_⟩
      simp only [Function.update_self, if_neg before]
    | commit tx active fresh => exact absurd set before
    | write active => exact absurd set before
    | enqueue tx id marked free => exact absurd set before
    | expire => cases set
    | start id path queued => cases set
    | begin id path free early => exact absurd set before
    | readEarly id path view waiting early => exact absurd set before
    | readLocked id path view locked => exact absurd set before
    | stop id path view waiting => exact absurd set before
    | stopLocked id path view locked => exact absurd set before
    | lock id path view waiting free may => exact absurd set before
    | finish id path snapshot locked => exact absurd set before

/-! ### Coverage -/

/-- A queued push is on its way that has read nothing. -/
def OnItsWay (s : State Tx P) : Prop :=
  ∃ id phase, s.jobs id = some ⟨.resyncClusterJob, phase⟩ ∧ phase.unread = true

/-- A queued push has read the change under the lock. -/
def Read (s : State Tx P) (tx : Tx) : Prop :=
  ∃ id phase snapshot, s.jobs id = some ⟨.resyncClusterJob, phase⟩ ∧
    phase.snapshot = some snapshot ∧ Includes tx snapshot

/-- **Every change is covered** once its hook has run. -/
structure Covering (s : State Tx P) : Prop where
  mark : MarkCovered s
  committed : ∀ {tx hook}, s.hooks tx = some hook → Includes tx s.history
  covered : ∀ {tx}, s.hooks tx = some .done → Enqueuing s ∨ OnItsWay s ∨ Read s tx
  planned : ∀ {id snapshot}, s.jobs id = some ⟨.resyncClusterJob, .finished snapshot⟩ →
    isActive snapshot = true → (id, snapshot) ∈ s.plans

theorem Queued.onItsWay (queued : Queued s) : OnItsWay s := by
  obtain ⟨id, here⟩ := queued
  exact ⟨id, .queued, here, rfl⟩

theorem Includes.later {tx : Tx} {snapshot : Snapshot Tx} {commit : Commit Tx}
    (includes : Includes tx snapshot) : Includes tx (commit :: snapshot) := by
  obtain ⟨found, member, same⟩ := includes
  exact ⟨found, List.mem_cons_of_mem _ member, same⟩

theorem committed_step (covering : Covering s) (steps : Steps s action s') {tx : Tx} {hook : Hook}
    (here : s'.hooks tx = some hook) : Includes tx s'.history := by
  cases steps with
  | commit other active fresh =>
    rcases update_eq_some here with ⟨rfl, -⟩ | ⟨-, here⟩
    · exact ⟨_, List.mem_cons_self, rfl⟩
    · exact (covering.committed here).later
  | write active => exact (covering.committed here).later
  | mark other waiting =>
    rcases update_eq_some here with ⟨rfl, -⟩ | ⟨-, here⟩
    · exact covering.committed waiting
    · exact covering.committed here
  | enqueue other id marked free =>
    rcases update_eq_some here with ⟨rfl, -⟩ | ⟨-, here⟩
    · exact covering.committed marked
    · exact covering.committed here
  | expire => exact covering.committed here
  | start id path queued => exact covering.committed here
  | begin id path free early => exact covering.committed here
  | readEarly id path view waiting early => exact covering.committed here
  | readLocked id path view locked => exact covering.committed here
  | stop id path view waiting => exact covering.committed here
  | stopLocked id path view locked => exact covering.committed here
  | lock id path view waiting free may => exact covering.committed here
  | finish id path snapshot locked => exact covering.committed here

theorem covers_step {tx : Tx} (goesOn : queuedPushesRun s action) (steps : Steps s action s')
    (committed : Includes tx s'.history) (covers : Enqueuing s ∨ OnItsWay s ∨ Read s tx) :
    Enqueuing s' ∨ OnItsWay s' ∨ Read s' tx := by
  rcases covers with enqueuing | ⟨id, phase, here, unread⟩ | ⟨id, phase, snapshot, here, read, includes⟩
  · exact (enqueuing_step steps enqueuing).imp_right fun queued => Or.inl queued.onItsWay
  · obtain ⟨phase', there, kept, -⟩ := queuedPush_step goesOn steps here
    rcases kept unread with still | reads
    · exact Or.inr (Or.inl ⟨id, phase', there, still⟩)
    · exact Or.inr (Or.inr ⟨id, phase', _, there, reads, committed⟩)
  · obtain ⟨phase', there, -, kept⟩ := queuedPush_step goesOn steps here
    exact Or.inr (Or.inr ⟨id, phase', snapshot, there, kept snapshot read, includes⟩)

theorem covered_step (covering : Covering s) (goesOn : queuedPushesRun s action)
    (steps : Steps s action s') {tx : Tx} (here : s'.hooks tx = some .done) :
    Enqueuing s' ∨ OnItsWay s' ∨ Read s' tx := by
  have committed := committed_step covering steps here
  have before : s.hooks tx = some .done → Enqueuing s' ∨ OnItsWay s' ∨ Read s' tx :=
    fun done => covers_step goesOn steps committed (covering.covered done)
  cases steps with
  | commit other active fresh =>
    rcases update_eq_some here with ⟨-, absurd⟩ | ⟨-, here⟩
    · cases absurd
    · exact before here
  | mark other waiting =>
    rcases update_eq_some here with ⟨rfl, done⟩ | ⟨-, here⟩
    · by_cases set : s.mark = true
      · have onTheWay : Enqueuing s ∨ OnItsWay s ∨ Read s tx :=
          (covering.mark set).imp_right fun queued => Or.inl queued.onItsWay
        exact covers_step goesOn (.mark tx waiting) committed onTheWay
      · rw [if_neg set] at done
        cases done
    · exact before here
  | enqueue other id marked free =>
    exact Or.inr (Or.inl ⟨id, .queued, Function.update_self _ _ _, rfl⟩)
  | write active => exact before here
  | expire => exact before here
  | start id path queued => exact before here
  | begin id path free early => exact before here
  | readEarly id path view waiting early => exact before here
  | readLocked id path view locked => exact before here
  | stop id path view waiting => exact before here
  | stopLocked id path view locked => exact before here
  | lock id path view waiting free may => exact before here
  | finish id path snapshot locked => exact before here

theorem planned_step (covering : Covering s) (steps : Steps s action s') {id : P}
    {snapshot : Snapshot Tx} (here : s'.jobs id = some ⟨.resyncClusterJob, .finished snapshot⟩)
    (active : isActive snapshot = true) : (id, snapshot) ∈ s'.plans := by
  cases steps with
  | finish other path found locked =>
    rcases update_eq_some here with ⟨rfl, same⟩ | ⟨-, here⟩
    · obtain ⟨rfl, phases⟩ := Job.mk.inj same
      obtain rfl := Phase.finished.inj phases
      simp only [active, Bool.true_eq_false, and_false, if_false]
      exact List.mem_cons_self
    · have before := covering.planned here active
      simp only
      split
      · exact before
      · exact List.mem_cons_of_mem _ before
  | start other path queued =>
    rcases update_eq_some here with ⟨-, same⟩ | ⟨-, here⟩
    · cases same
    · exact covering.planned here active
  | enqueue tx other marked free =>
    rcases update_eq_some here with ⟨-, same⟩ | ⟨-, here⟩
    · cases same
    · exact covering.planned here active
  | begin other path free early =>
    rcases update_eq_some here with ⟨-, same⟩ | ⟨-, here⟩
    · cases same
    · exact covering.planned here active
  | readEarly other path view waiting early =>
    rcases update_eq_some here with ⟨-, same⟩ | ⟨-, here⟩
    · cases same
    · exact covering.planned here active
  | readLocked other path view locked =>
    rcases update_eq_some here with ⟨-, same⟩ | ⟨-, here⟩
    · cases same
    · exact covering.planned here active
  | stop other path view waiting =>
    rcases update_eq_some here with ⟨-, same⟩ | ⟨-, here⟩
    · cases same
    · exact covering.planned here active
  | stopLocked other path view locked =>
    rcases update_eq_some here with ⟨-, same⟩ | ⟨-, here⟩
    · cases same
    · exact covering.planned here active
  | lock other path view waiting free may =>
    rcases update_eq_some here with ⟨-, same⟩ | ⟨-, here⟩
    · cases same
    · exact covering.planned here active
  | commit tx active' fresh => exact covering.planned here active
  | write active' => exact covering.planned here active
  | mark tx waiting => exact covering.planned here active
  | expire => exact covering.planned here active

theorem covering_reached (reached : Reaches step queuedPushesRun (State.initial : State Tx P) s) :
    Covering s := by
  refine reached.invariant Covering ?_ ?_
  · refine ⟨?_, ?_, ?_, ?_⟩
    · intro set
      cases set
    · intro tx hook here
      cases here
    · intro tx here
      cases here
    · intro id snapshot here
      cases here
  · intro here there action covering goesOn taken
    have steps := steps_of_step taken
    exact ⟨mark_covered steps covering.mark, committed_step covering steps,
      covered_step covering goesOn steps, planned_step covering steps⟩

/-! ### When the queued pushes have run -/

/-- The push has been through the lock. -/
def Phase.isFinished : Phase Tx → Bool
  | .finished _ => true
  | _ => false

/-- No hook is left to run, and every queued push has finished. -/
def Quiet (s : State Tx P) : Prop :=
  (∀ tx, ∀ hook ∈ s.hooks tx, hook = .done) ∧
    ∀ id, ∀ job ∈ s.jobs id, job.path = .resyncClusterJob → job.phase.isFinished = true

instance (s : State Bool Bool) : Decidable (Quiet s) := by
  unfold Quiet
  infer_instance

/-- **A queued push covers every committed change.** At any moment a change whose hook has run is in
the snapshot some queued push took under the lock, or a push is still to come that has not read; once
the hooks and the queued pushes have run, one of them took a snapshot with the change, and planned
from it where it shows the cluster active. -/
theorem queued_push_covers (s : State Tx P)
    (reached : Reaches step queuedPushesRun (State.initial : State Tx P) s) :
    (∀ tx, s.hooks tx = some .done → Enqueuing s ∨ OnItsWay s ∨ Read s tx) ∧
    (Quiet s → ∀ tx hook, s.hooks tx = some hook →
      ∃ id snapshot, s.jobs id = some ⟨.resyncClusterJob, .finished snapshot⟩ ∧
        Includes tx snapshot ∧ (isActive snapshot = true → (id, snapshot) ∈ s.plans)) := by
  have covering := covering_reached reached
  refine ⟨fun tx done => covering.covered done, ?_⟩
  rintro ⟨hooksDone, pushesDone⟩ tx hook here
  obtain rfl := hooksDone tx hook here
  rcases covering.covered here with ⟨other, marked⟩ | ⟨id, phase, there, unread⟩ |
    ⟨id, phase, snapshot, there, read, includes⟩
  · cases hooksDone other _ marked
  · have finished := pushesDone id _ there rfl
    cases phase with
    | finished found => cases unread
    | queued => cases finished
    | waiting view => cases finished
    | locked view => cases finished
    | stopped => cases finished
  · have finished := pushesDone id _ there rfl
    cases phase with
    | finished found =>
      obtain rfl := Option.some.inj read
      exact ⟨id, found, there, includes, covering.planned there⟩
    | queued => cases finished
    | waiting view => cases finished
    | locked view => cases finished
    | stopped => cases finished

/-- Two changes and one push: the second change finds the mark of the first. -/
def twoChanges : List (Action Bool Bool) :=
  [.commit false true, .mark false, .commit true true, .mark true, .enqueue false false,
    .start false, .lock false, .read false, .finish false]

theorem queued_push_covers_twoChanges :
    ∃ s : State Bool Bool, Reaches step queuedPushesRun State.initial s ∧ Quiet s ∧
      ∀ tx, s.hooks tx = some .done ∧
        ∃ id snapshot, s.jobs id = some ⟨.resyncClusterJob, .finished snapshot⟩ ∧
          Includes tx snapshot ∧ (isActive snapshot = true → (id, snapshot) ∈ s.plans) := by
  have meets : RunMeets step queuedPushesRun State.initial twoChanges := by decide
  have seen : (run step State.initial twoChanges).map
      (fun s => decide (Quiet s ∧ ∀ tx, s.hooks tx = some .done)) = some true := by decide
  obtain ⟨s, ends, found⟩ := Option.map_eq_some_iff.mp seen
  obtain ⟨quiet, done⟩ := of_decide_eq_true found
  have reached := reaches_of_run meets ends
  refine ⟨s, reached, quiet, fun tx => ⟨done tx, ?_⟩⟩
  exact (queued_push_covers s reached).2 quiet tx .done (done tx)

/-- A push for a cluster that is not active. -/
def inactivePush : List (Action Bool Bool) :=
  [.commit false false, .mark false, .enqueue false false, .start false, .lock false, .read false,
    .finish false]

/-- **A cluster that is not active is not planned for**: the push takes its snapshot and renders
nothing. -/
theorem inactive_cluster_not_planned :
    ¬ ∀ s : State Bool Bool, Reaches step queuedPushesRun State.initial s → Quiet s →
      ∀ tx hook, s.hooks tx = some hook →
        ∃ id snapshot, (id, snapshot) ∈ s.plans ∧ Includes tx snapshot := by
  intro planned
  have meets : RunMeets step queuedPushesRun State.initial inactivePush := by decide
  have seen : (run step State.initial inactivePush).map
      (fun s => decide (Quiet s ∧ s.hooks false = some .done ∧ s.plans = [])) = some true := by
    decide
  obtain ⟨s, ends, found⟩ := Option.map_eq_some_iff.mp seen
  obtain ⟨quiet, hooked, noPlans⟩ := of_decide_eq_true found
  obtain ⟨id, snapshot, member, -⟩ :=
    planned s (reaches_of_run meets ends) quiet false .done hooked
  rw [noPlans] at member
  cases member

end SuiteCloud.Mail.Cluster.Push
