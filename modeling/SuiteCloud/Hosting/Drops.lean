/-
**A dropped site stays dropped.**

One Suite Site with its provision job, its drop job, the poller, and any number of calls of `retry`
and of `rotate_secret`, a statement at a time. The drop reads the site under its lock and gives up
while the setup job is running; `retry` and `rotate_secret` write over a document they loaded
without a lock.

* `Outside` — the invariant of the two jobs: on a site that is Dropping or Dropped no setup job is
  past the head of its loop.
* `takesBack` — a request is about to commit a status of its own on such a site.
* `dropped_site_stays_dropped` — **no such commit, and a dropped site stays dropped**, in every run.
* `rotation_takes_back` — a rotation whose push fails during a drop has the site set up again.
-/

import SuiteCloud.Hosting.Sites
import SuiteCloud.Library.Transition

set_option linter.unusedSectionVars false

namespace SuiteCloud.Hosting.Drops

open SuiteCloud.Library
open SuiteCloud.Hosting.Claims (Status)
open SuiteCloud.Hosting.Sites

/-! ## The system -/

/-- Who writes the site. -/
inductive Owner (I : Type*)
  | job
  | drop
  | retry (id : I)
  | rotation (id : I)
  deriving DecidableEq

/-- The row, the queue of provision jobs, and what is under way. One provision job and one drop job
are let in at a time (`run_in_background`). -/
structure State (I : Type*) where
  row : RowLock (Owner I) SuiteSite
  isQueued : Bool
  job : Option Job
  drop : Option DropAt
  retries : I → Option Retry
  rotations : I → Option Rotation

inductive Action (I : Type*)
  /-- `poll_pending_sites`. -/
  | poll
  /-- A worker takes the queued job. -/
  | start
  | job (answer : Answer)
  /-- A worker takes a queued drop. -/
  | startDrop
  | drop (answer : Answer)
  /-- A `retry` is given the site, read without a lock. -/
  | retry (id : I)
  | retryWrite (id : I)
  | retryCommit (id : I)
  /-- `rotate_secret` reads the live site. -/
  | rotate (id : I)
  /-- The tenant is saved. -/
  | rotationSave (id : I)
  | rotationPush (id : I) (reached : Bool)
  | rotationCommit (id : I)
  /-- A request raises, and is rolled back. -/
  | retryAbort (id : I)
  | rotationAbort (id : I)

variable {I : Type*} [DecidableEq I]

/-- A site and nothing under way. -/
def State.initial (site : SuiteSite) : State I :=
  ⟨.free site, false, none, none, fun _ => none, fun _ => none⟩

/-- A job of the same id that is running is left to it. -/
def State.enqueue (s : State I) : State I := if s.job.isSome then s else { s with isQueued := true }

def State.setRetry (s : State I) (id : I) (retry : Option Retry) : State I :=
  { s with retries := Function.update s.retries id retry }

def State.setRotation (s : State I) (id : I) (rotation : Option Rotation) : State I :=
  { s with rotations := Function.update s.rotations id rotation }

/-- **One step of the system.** -/
def step (s : State I) : Action I → Option (State I)
  | .poll => if (stepFor s.row.committed.status).isSome then some s.enqueue else none
  | .start =>
      if s.isQueued ∧ s.job.isNone then
        some { s with isQueued := false, job := some (.starts s.row.committed) }
      else none
  | .job answer =>
      s.job.bind fun job => (job.step .job s.row answer).map fun result =>
        { s with job := result.1, row := result.2 }
  | .startDrop => if s.drop.isNone then some { s with drop := some .load } else none
  | .drop answer =>
      s.drop.bind fun here => (here.step .drop s.row s.job.isSome answer).map fun result =>
        { s with drop := result.1, row := result.2 }
  | .retry id =>
      if (s.retries id).isNone then some (s.setRetry id (some ⟨s.row.committed, false⟩)) else none
  | .retryWrite id =>
      (s.retries id).bind fun retry => (retry.write (.retry id) s.row).map fun result =>
        { s.setRetry id (some result.1) with row := result.2 }
  | .retryCommit id =>
      (s.retries id).bind fun retry =>
        if retry.isDone then
          some ({ s.setRetry id none with row := s.row.commit (.retry id) }).enqueue
        else none
  | .rotate id =>
      -- `get_live_site`: a site that is Dropped is not one.
      if (s.rotations id).isNone ∧ s.row.committed.status ≠ .dropped then
        some (s.setRotation id (some ⟨.loaded, s.row.committed⟩))
      else none
  | .rotationSave id =>
      (s.rotations id).bind fun rotation =>
        if rotation.stands = .loaded then some (s.setRotation id (some ⟨.saved, rotation.doc⟩))
        else none
  | .rotationPush id reached =>
      (s.rotations id).bind fun rotation => (rotation.push (.rotation id) s.row reached).map
        fun result => { s.setRotation id (some result.1) with row := result.2 }
  | .rotationCommit id =>
      (s.rotations id).bind fun rotation =>
        match rotation.stands with
        | .done requeues =>
            let ended := { s.setRotation id none with row := s.row.commit (.rotation id) }
            some (if requeues then ended.enqueue else ended)
        | _ => none
  | .retryAbort id =>
      (s.retries id).map fun _ => { s.setRetry id none with row := s.row.release (.retry id) }
  | .rotationAbort id =>
      (s.rotations id).map fun _ =>
        { s.setRotation id none with row := s.row.release (.rotation id) }

/-! ## The condition -/

/-- The site is being dropped, or was. -/
def isGone (row : SuiteSite) : Bool := row.status = .dropping ∨ row.status = .dropped

/-- **A request takes a dropped site back**: it has written over the document it loaded before, and
its version has a status of its own where the committed one is Dropping or Dropped. -/
def takesBack (row : RowLock (Owner I) SuiteSite) (me : Owner I) : Bool :=
  isGone row.committed && row.isHeldBy me && !isGone row.latest

/-- The step commits no such version. -/
def keepsDrop (s : State I) : Action I → Prop
  | .retryCommit id => takesBack s.row (.retry id) = false
  | .rotationCommit id => takesBack s.row (.rotation id) = false
  | _ => True

instance decidableKeepsDrop (s : State I) : ∀ action, Decidable (keepsDrop s action)
  | .retryCommit id => inferInstanceAs (Decidable (takesBack s.row (.retry id) = false))
  | .rotationCommit id => inferInstanceAs (Decidable (takesBack s.row (.rotation id) = false))
  | .poll | .start | .job _ | .startDrop | .drop _ | .retry _ | .retryWrite _ | .rotate _
  | .rotationSave _ | .rotationPush _ _ | .retryAbort _ | .rotationAbort _ => isTrue trivial

/-! ## What the statements do to a site that is dropped -/

variable {row after : RowLock (Owner I) SuiteSite} {me : Owner I} {site : SuiteSite}

theorem stepFor_of_isGone (gone : isGone site) : stepFor site.status = none := by
  obtain dropping | dropped := of_decide_eq_true gone
  · rw [dropping]
    rfl
  · rw [dropped]
    rfl

theorem isGone_resumed (doc : SuiteSite) : isGone (SuiteSite.resumed doc site) = false := by
  unfold isGone SuiteSite.resumed SuiteSite.resumeStatus
  dsimp only
  split
  · rfl
  split
  · rfl
  split <;> rfl

theorem isGone_of_does {job : Job} {answer : Answer} {change : SuiteSite → SuiteSite} {next : At}
    (does : job.Does answer (.dbSet change next)) (gone : isGone (change site)) : isGone site := by
  cases does with
  | place => exact gone
  | configured => exact gone
  | found | created =>
    unfold isGone SuiteSite.created at gone
    dsimp only at gone
    split at gone <;> cases gone
  | creating | reroll | configuring | activates => cases gone

/-! ## The invariant of the two jobs -/

/-- **The two jobs keep out of each other's way.** -/
structure Outside (row : RowLock (Owner I) SuiteSite) (job : Option Job) (drop : Option DropAt) :
    Prop where
  /-- No setup job is in a step of a site that is gone. -/
  idle : isGone row.committed → ∀ here, job = some here → here.stands = .load
  /-- Only the drop's version is that of a site that goes. -/
  fresh : ∀ owner version, row.held = some (owner, version) → isGone version →
    isGone row.committed ∨ (owner = .drop ∧ drop = some .checkpoint)
  /-- The jobs leave a site gone. -/
  kept : isGone row.committed → ∀ owner version, row.held = some (owner, version) →
    owner = .job ∨ owner = .drop → isGone version
  /-- The drop has the site locked when it asks for the setup job. -/
  checking : drop = some .check → ∃ version, row.held = some (.drop, version)
  /-- And until Dropping is committed: no setup job gets past the head of its loop. -/
  going : drop = some .checkpoint → (∃ version, row.held = some (.drop, version) ∧ isGone version) ∧
    ∀ here, job = some here → here.stands = .load
  gone : drop = some .server → isGone row.committed

namespace Outside

variable {job left : Option Job} {drop : Option DropAt} {change : SuiteSite → SuiteSite}

theorem busy {here : Job} (holds : Outside row (some here) drop) (past : here.stands ≠ .load) :
    ¬isGone row.committed ∧ drop ≠ some .checkpoint :=
  ⟨fun gone => past (holds.idle gone here rfl), fun going => past ((holds.going going).2 here rfl)⟩

/-- While the site is not gone and no drop is about to commit, the job may stand anywhere. -/
theorem moved (holds : Outside row job drop) (open_ : ¬isGone row.committed)
    (waiting : drop ≠ some .checkpoint) : Outside row left drop where
  idle := fun gone => absurd gone open_
  fresh := holds.fresh
  kept := holds.kept
  checking := holds.checking
  going := fun going => absurd going waiting
  gone := holds.gone

theorem rests (holds : Outside row job drop)
    (atHead : ∀ here, left = some here → here.stands = .load) : Outside row left drop where
  idle := fun _ => atHead
  fresh := holds.fresh
  kept := holds.kept
  checking := holds.checking
  going := fun going => ⟨(holds.going going).1, atHead⟩
  gone := holds.gone

theorem latest_gone (holds : Outside row job drop) (allowed : row.mayLock me)
    (gone : isGone row.latest) : isGone row.committed ∨ (me = .drop ∧ drop = some .checkpoint) := by
  cases held : row.held with
  | none =>
    rw [RowLock.latest_of_free held] at gone
    exact Or.inl gone
  | some version =>
    obtain ⟨owner, version⟩ := version
    rw [RowLock.latest_of_held held] at gone
    obtain rfl := RowLock.eq_of_mayLock allowed held
    exact holds.fresh owner version held gone

theorem latest_kept (holds : Outside row job drop) (allowed : row.mayLock me)
    (mine : me = .job ∨ me = .drop) (gone : isGone row.committed) : isGone row.latest := by
  cases held : row.held with
  | none =>
    rw [RowLock.latest_of_free held]
    exact gone
  | some version =>
    obtain ⟨owner, version⟩ := version
    rw [RowLock.latest_of_held held]
    obtain rfl := RowLock.eq_of_mayLock allowed held
    exact holds.kept gone owner version held mine

/-- Where somebody else may lock the site, the drop is neither at its check nor about to commit. -/
theorem waiting (holds : Outside row job drop) (allowed : row.mayLock me) (foreign : me ≠ .drop) :
    drop ≠ some .check ∧ drop ≠ some .checkpoint := by
  constructor
  · intro checks
    obtain ⟨version, held⟩ := holds.checking checks
    exact foreign (RowLock.eq_of_mayLock allowed held).symm
  · intro going
    obtain ⟨⟨version, held, -⟩, -⟩ := holds.going going
    exact foreign (RowLock.eq_of_mayLock allowed held).symm

/-- **An update of anyone but the drop**: it makes no site gone, and where a job makes it, it leaves
a gone one gone. -/
theorem write (holds : Outside row job drop) (foreign : me ≠ .drop)
    (written : row.write me change = some after)
    (fresh : isGone (change row.latest) → isGone row.latest)
    (kept : isGone row.committed → me = .job → isGone (change row.latest)) :
    Outside after job drop := by
  obtain ⟨allowed, rfl⟩ := RowLock.write_eq_some.mp written
  have waits := holds.waiting allowed foreign
  constructor
  · exact holds.idle
  · intro owner version held gone
    obtain ⟨rfl, rfl⟩ := Prod.mk.inj (Option.some.inj held)
    obtain before | ⟨mine, -⟩ := holds.latest_gone allowed (fresh gone)
    · exact Or.inl before
    · exact absurd mine foreign
  · intro gone owner version held mine
    obtain ⟨rfl, rfl⟩ := Prod.mk.inj (Option.some.inj held)
    exact kept gone (mine.resolve_right foreign)
  · exact fun checks => absurd checks waits.1
  · exact fun going => absurd going waits.2
  · exact holds.gone

theorem dropWrite {next : Option DropAt} (holds : Outside row job drop)
    (written : row.write .drop change = some after)
    (fresh : isGone (change row.latest) → isGone row.committed ∨ next = some .checkpoint)
    (kept : isGone row.committed → isGone (change row.latest))
    (going : next = some .checkpoint → isGone (change row.latest) ∧ job = none)
    (gone : next = some .server → isGone row.committed) : Outside after job next := by
  obtain ⟨-, rfl⟩ := RowLock.write_eq_some.mp written
  constructor
  · exact holds.idle
  · intro owner version held isGone
    obtain ⟨rfl, rfl⟩ := Prod.mk.inj (Option.some.inj held)
    exact (fresh isGone).imp_right fun at_ => ⟨rfl, at_⟩
  · intro gone owner version held _
    obtain ⟨rfl, rfl⟩ := Prod.mk.inj (Option.some.inj held)
    exact kept gone
  · exact fun _ => ⟨_, rfl⟩
  · intro goes
    obtain ⟨made, rfl⟩ := going goes
    exact ⟨⟨_, rfl, made⟩, fun _ started => nomatch started⟩
  · exact gone

/-- A rollback to the start of a job's step. -/
theorem undo (holds : Outside row job drop) (waits : me = .drop → drop = some .server) :
    Outside (row.undo me) job drop := by
  have other (owner : Owner I) (version : SuiteSite) (held : (row.undo me).held = some (owner, version)) :
      (owner = me ∧ version = row.committed) ∨ row.held = some (owner, version) := by
    rw [RowLock.held_undo] at held
    split at held
    · obtain ⟨rfl, rfl⟩ := Prod.mk.inj (Option.some.inj held)
      exact Or.inl ⟨rfl, rfl⟩
    · exact Or.inr held
  have still (version : SuiteSite) (held : row.held = some (.drop, version))
      (early : drop ≠ some .server) : (row.undo me).held = some (.drop, version) := by
    rw [RowLock.held_undo, if_neg]
    · exact held
    · intro mine
      obtain ⟨version', held'⟩ := RowLock.isHeldBy_iff.mp mine
      rw [held] at held'
      exact early (waits (Prod.mk.inj (Option.some.inj held')).1.symm)
  constructor
  · rw [RowLock.committed_undo]
    exact holds.idle
  · intro owner version held gone
    rw [RowLock.committed_undo]
    obtain ⟨rfl, rfl⟩ | before := other owner version held
    · exact Or.inl gone
    · exact holds.fresh owner version before gone
  · intro gone owner version held mine
    rw [RowLock.committed_undo] at gone
    obtain ⟨rfl, rfl⟩ | before := other owner version held
    · exact gone
    · exact holds.kept gone owner version before mine
  · intro checks
    obtain ⟨version, held⟩ := holds.checking checks
    refine ⟨version, still version held fun serves => ?_⟩
    rw [checks] at serves
    cases serves
  · intro going
    obtain ⟨⟨version, held, gone⟩, atHead⟩ := holds.going going
    refine ⟨⟨version, still version held fun serves => ?_, gone⟩, atHead⟩
    rw [going] at serves
    cases serves
  · rw [RowLock.committed_undo]
    exact holds.gone

/-- **The end of a transaction of anyone but the drop**: what is committed is gone where it was, and
the row is free. -/
theorem ended (holds : Outside row job drop) (foreign : me ≠ .drop)
    (freed : after.held = if row.isHeldBy me then none else row.held)
    (same : isGone after.committed ↔ isGone row.committed) : Outside after job drop := by
  have before (owner : Owner I) (version : SuiteSite) (held : after.held = some (owner, version)) :
      row.held = some (owner, version) := by
    rw [freed] at held
    split at held
    · cases held
    · exact held
  have still (version : SuiteSite) (held : row.held = some (.drop, version)) :
      after.held = some (.drop, version) := by
    rw [freed, if_neg]
    · exact held
    · intro mine
      obtain ⟨version', held'⟩ := RowLock.isHeldBy_iff.mp mine
      rw [held] at held'
      exact foreign (Prod.mk.inj (Option.some.inj held')).1.symm
  constructor
  · rw [same]
    exact holds.idle
  · intro owner version held
    rw [same]
    exact holds.fresh owner version (before owner version held)
  · intro gone owner version held
    rw [same] at gone
    exact holds.kept gone owner version (before owner version held)
  · intro checks
    obtain ⟨version, held⟩ := holds.checking checks
    exact ⟨version, still version held⟩
  · intro going
    obtain ⟨⟨version, held, gone⟩, atHead⟩ := holds.going going
    exact ⟨⟨version, still version held, gone⟩, atHead⟩
  · rw [same]
    exact holds.gone

theorem release (holds : Outside row job drop) (foreign : me ≠ .drop) :
    Outside (row.release me) job drop :=
  holds.ended foreign RowLock.held_release (by rw [RowLock.committed_release])

/-- **A commit of anyone but the drop** makes no site gone; it leaves a gone one gone unless it takes
it back. -/
theorem gone_commit (holds : Outside row job drop) (foreign : me ≠ .drop)
    (keeps : me = .job ∨ takesBack row me = false) :
    isGone (row.commit me).committed ↔ isGone row.committed := by
  rw [RowLock.committed_commit]
  split
  · next mine =>
    obtain ⟨version, held⟩ := RowLock.isHeldBy_iff.mp mine
    constructor
    · rw [RowLock.latest_of_held held]
      intro gone
      obtain before | ⟨mine, -⟩ := holds.fresh me version held gone
      · exact before
      · exact absurd mine foreign
    · intro gone
      obtain rfl | keeps := keeps
      · rw [RowLock.latest_of_held held]
        exact holds.kept gone .job version held (Or.inl rfl)
      · unfold takesBack at keeps
        rw [gone, mine, Bool.true_and, Bool.true_and, Bool.not_eq_false'] at keeps
        exact keeps
  · exact Iff.rfl

theorem commit (holds : Outside row job drop) (foreign : me ≠ .drop)
    (keeps : me = .job ∨ takesBack row me = false) : Outside (row.commit me) job drop :=
  holds.ended foreign RowLock.held_commit (holds.gone_commit foreign keeps)

end Outside

/-! ## What a step keeps -/

theorem job_ne_drop : (Owner.job : Owner I) ≠ .drop := nofun

theorem Outside.jobStep {here : Job} {left : Option Job} {drop : Option DropAt} {answer : Answer}
    (holds : Outside row (some here) drop)
    (taken : here.step .job row answer = some (left, after)) : Outside after left drop := by
  obtain ⟨effect, named, applied⟩ := Job.step_eq_some.mp taken
  have does := Job.does_of_effect named
  by_cases atHead : here.stands = .load
  · obtain rfl | rfl := does.loads_of_load atHead
    · obtain ⟨locked, got, ends⟩ := Effect.apply_loads applied
      have allowed := (RowLock.write_eq_some.mp got).1
      have still : Outside locked (some here) drop :=
        holds.write job_ne_drop got id fun gone _ => holds.latest_kept allowed (Or.inl rfl) gone
      have held : locked.held = some (.job, row.latest) := RowLock.held_write got
      obtain ⟨step, found, rfl, rfl⟩ | ⟨-, rfl, rfl⟩ := ends
      · have alive : ¬isGone after.committed := by
          intro gone
          have latest := still.kept gone .job row.latest held (Or.inl rfl)
          rw [← RowLock.latest_of_held held] at latest
          rw [stepFor_of_isGone latest] at found
          cases found
        exact still.moved alive (still.waiting (by rw [RowLock.mayLock, held]; rfl) job_ne_drop).2
      · exact (still.release job_ne_drop).rests fun _ started => nomatch started
    · obtain ⟨rfl, rfl⟩ := Prod.mk.inj (Option.some.inj applied)
      exact (holds.release job_ne_drop).rests fun _ started => nomatch started
  · -- Past the head of its loop the site is not gone, and stays so whatever the job does.
    obtain ⟨alive, waits⟩ := holds.busy atHead
    cases effect with
    | loads =>
      cases does with
      | loads here => exact absurd here atHead
    | die =>
      obtain ⟨rfl, rfl⟩ := Prod.mk.inj (Option.some.inj applied)
      exact (holds.release job_ne_drop).rests fun _ started => nomatch started
    | goTo next =>
      obtain ⟨rfl, rfl⟩ := Prod.mk.inj (Option.some.inj applied)
      exact holds.moved alive waits
    | dbSet change next =>
      obtain ⟨rfl, written⟩ := Effect.apply_dbSet applied
      have wrote := holds.write job_ne_drop written (isGone_of_does does)
        fun gone _ => absurd gone alive
      rw [← RowLock.committed_write written] at alive
      exact wrote.moved alive waits
    | commit next =>
      obtain ⟨rfl, rfl⟩ := Prod.mk.inj (Option.some.inj applied)
      have kept := holds.commit job_ne_drop (Or.inl rfl)
      rw [← holds.gone_commit job_ne_drop (Or.inl rfl)] at alive
      exact kept.moved alive waits
    | note =>
      obtain ⟨rfl, got⟩ := Effect.apply_note applied
      have noted := holds.write job_ne_drop got id fun gone _ => absurd gone alive
      rw [← RowLock.committed_write got] at alive
      exact noted.moved alive waits
    | fail =>
      obtain ⟨rfl, written⟩ := Effect.apply_fail applied
      have undone : Outside (row.undo .job) (some here) drop := holds.undo nofun
      have failed := undone.write job_ne_drop written (fun gone => nomatch gone)
        fun gone _ => absurd (by rwa [RowLock.committed_undo] at gone) alive
      rw [← RowLock.committed_undo, ← RowLock.committed_write written] at alive
      exact failed.moved alive waits

theorem Outside.dropEnded {job : Option Job} {drop next : Option DropAt} (holds : Outside row job drop)
    (freed : after.held = if row.isHeldBy .drop then none else row.held)
    (leaves : isGone row.committed → isGone after.committed)
    (origin : isGone after.committed → isGone row.committed ∨
      (row.isHeldBy .drop ∧ ∀ here, job = some here → here.stands = .load))
    (stands : next = none ∨ (next = some .server ∧ isGone after.committed)) :
    Outside after job next := by
  have before (owner : Owner I) (version : SuiteSite) (held : after.held = some (owner, version)) :
      row.held = some (owner, version) ∧ owner ≠ .drop ∧ ¬row.isHeldBy .drop := by
    rw [freed] at held
    split at held
    · cases held
    · next foreign =>
      refine ⟨held, ?_, foreign⟩
      rintro rfl
      exact foreign (RowLock.isHeldBy_iff.mpr ⟨version, held⟩)
  constructor
  · intro gone here started
    obtain already | ⟨-, atHead⟩ := origin gone
    · exact holds.idle already here started
    · exact atHead here started
  · intro owner version held gone
    obtain ⟨held, foreign, -⟩ := before owner version held
    obtain already | ⟨mine, -⟩ := holds.fresh owner version held gone
    · exact Or.inl (leaves already)
    · exact absurd mine foreign
  · intro gone owner version held mine
    obtain ⟨held, -, unheld⟩ := before owner version held
    obtain already | ⟨mine, -⟩ := origin gone
    · exact holds.kept already owner version held ‹_›
    · exact absurd mine unheld
  · intro checks
    obtain rfl | ⟨rfl, -⟩ := stands <;> cases checks
  · intro going
    obtain rfl | ⟨rfl, -⟩ := stands <;> cases going
  · intro serves
    obtain rfl | ⟨-, gone⟩ := stands
    · cases serves
    · exact gone

theorem Outside.dropRelease {job : Option Job} {drop : Option DropAt} (holds : Outside row job drop) :
    Outside (row.release .drop) job none :=
  holds.dropEnded RowLock.held_release (by rw [RowLock.committed_release]; exact id)
    (by rw [RowLock.committed_release]; exact Or.inl) (Or.inl rfl)

/-- A drop job is taken from the queue. -/
theorem Outside.starts {job : Option Job} {drop : Option DropAt} (holds : Outside row job drop)
    (absent : drop = none) : Outside row job (some .load) where
  idle := holds.idle
  fresh := by
    intro owner version held gone
    obtain already | ⟨-, going⟩ := holds.fresh owner version held gone
    · exact Or.inl already
    · rw [absent] at going
      cases going
  kept := holds.kept
  checking := nofun
  going := nofun
  gone := nofun

theorem Outside.dropStep {here : DropAt} {job : Option Job} {left : Option DropAt} {answer : Answer}
    (holds : Outside row job (some here))
    (taken : here.step .drop row job.isSome answer = some (left, after)) : Outside after job left := by
  have reads {change : SuiteSite → SuiteSite} {locked : RowLock (Owner I) SuiteSite}
      (got : row.write .drop change = some locked) (gone : isGone row.committed) : isGone row.latest :=
    holds.latest_kept (RowLock.write_eq_some.mp got).1 (Or.inr rfl) gone
  have latest {change : SuiteSite → SuiteSite} {locked : RowLock (Owner I) SuiteSite}
      (early : here ≠ .checkpoint) (got : row.write .drop change = some locked)
      (gone : isGone row.latest) : isGone row.committed := by
    obtain before | ⟨-, going⟩ := holds.latest_gone (RowLock.write_eq_some.mp got).1 gone
    · exact before
    · exact absurd (Option.some.inj going) early
  cases here with
  | load =>
    cases answer with
    | goesOn =>
      obtain ⟨locked, got, made⟩ := Option.map_eq_some_iff.mp taken
      have checks : Outside locked job (some .check) :=
        holds.dropWrite got (fun gone => Or.inl (latest nofun got gone)) (reads got) nofun nofun
      split at made
      · obtain ⟨rfl, rfl⟩ := Prod.mk.inj made
        exact checks.dropRelease
      · obtain ⟨rfl, rfl⟩ := Prod.mk.inj made
        exact checks
    | dies =>
      obtain ⟨rfl, rfl⟩ := Prod.mk.inj (Option.some.inj taken)
      exact holds.dropRelease
    | _ => cases taken
  | check =>
    cases answer with
    | goesOn =>
      unfold DropAt.step at taken
      dsimp only at taken
      split at taken
      · obtain ⟨noted, got, made⟩ := Option.map_eq_some_iff.mp taken
        obtain ⟨rfl, rfl⟩ := Prod.mk.inj made
        exact holds.dropWrite got (fun gone => Or.inl (latest nofun got gone)) (reads got) nofun nofun
      · next unstarted =>
        obtain ⟨written, got, made⟩ := Option.map_eq_some_iff.mp taken
        obtain ⟨rfl, rfl⟩ := Prod.mk.inj made
        exact holds.dropWrite got (fun _ => Or.inr rfl) (fun _ => rfl)
          (fun _ => ⟨rfl, Option.not_isSome_iff_eq_none.mp unstarted⟩) nofun
    | dies =>
      obtain ⟨rfl, rfl⟩ := Prod.mk.inj (Option.some.inj taken)
      exact holds.dropRelease
    | _ => cases taken
  | checkpoint =>
    cases answer with
    | goesOn =>
      obtain ⟨rfl, rfl⟩ := Prod.mk.inj (Option.some.inj taken)
      obtain ⟨⟨version, held, gone⟩, atHead⟩ := holds.going rfl
      have mine : row.isHeldBy .drop := RowLock.isHeldBy_iff.mpr ⟨version, held⟩
      have made : isGone (row.commit .drop).committed := by
        rw [RowLock.committed_commit, if_pos mine, RowLock.latest_of_held held]
        exact gone
      exact holds.dropEnded RowLock.held_commit (fun _ => made) (fun _ => Or.inr ⟨mine, atHead⟩)
        (Or.inr ⟨rfl, made⟩)
    | dies =>
      obtain ⟨rfl, rfl⟩ := Prod.mk.inj (Option.some.inj taken)
      exact holds.dropRelease
    | _ => cases taken
  | server =>
    have gone := holds.gone rfl
    cases answer with
    | goesOn =>
      obtain ⟨written, got, made⟩ := Option.map_eq_some_iff.mp taken
      obtain ⟨rfl, rfl⟩ := Prod.mk.inj made
      exact holds.dropWrite got (fun _ => Or.inl gone) (fun _ => rfl) nofun nofun
    | raises =>
      obtain ⟨noted, got, made⟩ := Option.map_eq_some_iff.mp taken
      obtain ⟨rfl, rfl⟩ := Prod.mk.inj made
      have undone : Outside (row.undo .drop) job (some .server) := holds.undo fun _ => rfl
      have still : isGone (row.undo .drop).committed := undone.gone rfl
      exact undone.dropWrite got (fun _ => Or.inl still)
        (undone.latest_kept (RowLock.write_eq_some.mp got).1 (Or.inr rfl)) nofun nofun
    | dies =>
      obtain ⟨rfl, rfl⟩ := Prod.mk.inj (Option.some.inj taken)
      exact holds.dropRelease
    | _ => cases taken
  | finish =>
    cases answer with
    | goesOn =>
      obtain ⟨rfl, rfl⟩ := Prod.mk.inj (Option.some.inj taken)
      refine holds.dropEnded RowLock.held_commit ?_ ?_ (Or.inl rfl)
      · exact fun gone => RowLock.committed_commit_of (isGone · = true) gone fun version held =>
          holds.kept gone .drop version held (Or.inr rfl)
      · intro gone
        rw [RowLock.committed_commit] at gone
        split at gone
        · next mine =>
          obtain ⟨version, held⟩ := RowLock.isHeldBy_iff.mp mine
          rw [RowLock.latest_of_held held] at gone
          obtain before | ⟨-, going⟩ := holds.fresh .drop version held gone
          · exact Or.inl before
          · cases going
        · exact Or.inl gone
    | dies =>
      obtain ⟨rfl, rfl⟩ := Prod.mk.inj (Option.some.inj taken)
      exact holds.dropRelease
    | _ => cases taken

/-! ## Every run -/

/-- The invariant of the whole system. -/
def State.Outside (s : State I) : Prop := Drops.Outside s.row s.job s.drop

theorem outside_initial (site : SuiteSite) : (State.initial site : State I).Outside where
  idle := fun _ _ started => nomatch started
  fresh := fun _ _ held => nomatch held
  kept := fun _ _ _ held => nomatch held
  checking := nofun
  going := nofun
  gone := nofun

theorem enqueue_eq (s : State I) :
    s.enqueue.row = s.row ∧ s.enqueue.job = s.job ∧ s.enqueue.drop = s.drop := by
  unfold State.enqueue
  split <;> exact ⟨rfl, rfl, rfl⟩

variable {s there : State I} {action : Action I}

theorem State.Outside.enqueue (holds : s.Outside) : s.enqueue.Outside := by
  unfold State.Outside
  rw [(enqueue_eq s).1, (enqueue_eq s).2.1, (enqueue_eq s).2.2]
  exact holds

theorem outside_step (holds : s.Outside) (keeps : keepsDrop s action)
    (taken : step s action = some there) :
    there.Outside ∧ (isGone s.row.committed → isGone there.row.committed) := by
  have committed {me : Owner I} (mine : me = .job ∨ me = .drop) {after : RowLock (Owner I) SuiteSite}
      (same : after.committed = s.row.committed ∨ after = s.row.commit me)
      (gone : isGone s.row.committed) : isGone after.committed := by
    obtain same | rfl := same
    · rw [same]
      exact gone
    · exact RowLock.committed_commit_of (isGone · = true) gone fun version held =>
        holds.kept gone me version held mine
  have retry_ne_drop (id : I) : Owner.retry id ≠ .drop := nofun
  have rotation_ne_drop (id : I) : Owner.rotation id ≠ .drop := nofun
  cases action with
  | poll =>
    simp only [step] at taken
    split at taken
    · obtain rfl := Option.some.inj taken
      refine ⟨holds.enqueue, ?_⟩
      rw [(enqueue_eq s).1]
      exact id
    · cases taken
  | start =>
    simp only [step] at taken
    split at taken
    · obtain rfl := Option.some.inj taken
      exact ⟨holds.rests fun here started => Option.some.inj started ▸ rfl, id⟩
    · cases taken
  | job answer =>
    obtain ⟨here, running, taken⟩ := Option.bind_eq_some_iff.mp taken
    obtain ⟨⟨left, after⟩, made, rfl⟩ := Option.map_eq_some_iff.mp taken
    unfold State.Outside at holds
    rw [running] at holds
    exact ⟨holds.jobStep made, committed (Or.inl rfl) (Job.step_committed made)⟩
  | startDrop =>
    simp only [step] at taken
    split at taken
    · next none_ =>
      obtain rfl := Option.some.inj taken
      exact ⟨holds.starts (Option.isNone_iff_eq_none.mp none_), id⟩
    · cases taken
  | drop answer =>
    obtain ⟨here, running, taken⟩ := Option.bind_eq_some_iff.mp taken
    obtain ⟨⟨left, after⟩, made, rfl⟩ := Option.map_eq_some_iff.mp taken
    unfold State.Outside at holds
    rw [running] at holds
    exact ⟨holds.dropStep made, committed (Or.inr rfl) (DropAt.step_committed made)⟩
  | retry id | rotate id =>
    simp only [step] at taken
    split at taken
    · obtain rfl := Option.some.inj taken
      exact ⟨holds, fun gone => gone⟩
    · cases taken
  | retryWrite id =>
    obtain ⟨retry, -, taken⟩ := Option.bind_eq_some_iff.mp taken
    obtain ⟨⟨done, after⟩, made, rfl⟩ := Option.map_eq_some_iff.mp taken
    obtain ⟨-, written⟩ | ⟨-, rfl⟩ := Retry.write_eq_some made
    · have fresh (gone : isGone (SuiteSite.resumed retry.doc s.row.latest)) : isGone s.row.latest := by
        rw [isGone_resumed] at gone
        cases gone
      refine ⟨holds.write (retry_ne_drop id) written fresh (fun _ => nofun), fun gone => ?_⟩
      rw [← RowLock.committed_write written] at gone
      exact gone
    · exact ⟨holds, fun gone => gone⟩
  | retryCommit id =>
    obtain ⟨retry, -, taken⟩ := Option.bind_eq_some_iff.mp taken
    split at taken
    · obtain rfl := Option.some.inj taken
      have ended := holds.commit (retry_ne_drop id) (Or.inr keeps)
      have gone := (holds.gone_commit (retry_ne_drop id) (Or.inr keeps)).mpr
      refine ⟨State.Outside.enqueue (s := { s.setRetry id none with row := s.row.commit (.retry id) })
        ended, ?_⟩
      rw [(enqueue_eq _).1]
      exact gone
    · cases taken
  | rotationSave id =>
    obtain ⟨rotation, -, taken⟩ := Option.bind_eq_some_iff.mp taken
    split at taken
    · obtain rfl := Option.some.inj taken
      exact ⟨holds, fun gone => gone⟩
    · cases taken
  | rotationPush id reached =>
    obtain ⟨rotation, -, taken⟩ := Option.bind_eq_some_iff.mp taken
    obtain ⟨⟨done, after⟩, made, rfl⟩ := Option.map_eq_some_iff.mp taken
    have wrote {change : SuiteSite → SuiteSite} (written : s.row.write (.rotation id) change = some after)
        (fresh : isGone (change s.row.latest) → isGone s.row.latest) :
        Drops.Outside after s.job s.drop ∧ (isGone s.row.committed → isGone after.committed) := by
      refine ⟨holds.write (rotation_ne_drop id) written fresh (fun _ => nofun), fun gone => ?_⟩
      rw [RowLock.committed_write written]
      exact gone
    cases Rotation.pushes_of_push made with
    | reached | unreached | unconfigured | requeues => exact ⟨holds, fun gone => gone⟩
    | clears _ _ _ written => exact wrote written fun gone => gone
    | unassigns _ _ _ written => exact wrote written fun gone => nomatch gone
  | rotationCommit id =>
    obtain ⟨rotation, -, taken⟩ := Option.bind_eq_some_iff.mp taken
    split at taken
    · obtain rfl := Option.some.inj taken
      have ended := holds.commit (rotation_ne_drop id) (Or.inr keeps)
      have gone := (holds.gone_commit (rotation_ne_drop id) (Or.inr keeps)).mpr
      split
      · refine ⟨State.Outside.enqueue (s := { s.setRotation id none with
          row := s.row.commit (.rotation id) }) ended, ?_⟩
        rw [(enqueue_eq _).1]
        exact gone
      · exact ⟨ended, gone⟩
    · cases taken
  | retryAbort id | rotationAbort id =>
    obtain ⟨_, -, rfl⟩ := Option.map_eq_some_iff.mp taken
    refine ⟨holds.release (by first | exact retry_ne_drop id | exact rotation_ne_drop id), ?_⟩
    intro gone
    rw [← RowLock.committed_release] at gone
    exact gone

theorem outside_of_reaches {site : SuiteSite} (reached : Reaches step keepsDrop (.initial site) s) :
    s.Outside :=
  reached.invariant State.Outside (outside_initial site) fun holds keeps taken =>
    (outside_step holds keeps taken).1

/-- A tenant's site that is set up. -/
def shop : SuiteSite :=
  ⟨"0199-shop", some "0198-shop", .active, some "vm-1", some "suite-1f.example.net", 0, none, true, true⟩

/-- The drop of a site up to the commit of Dropping. -/
def dropBegins : List (Action (Fin 2)) := [.startDrop, .drop .goesOn, .drop .goesOn, .drop .goesOn]

/-- A rotation that loads the site while it is dropped, and a job that was queued before. -/
def dropped : List (Action (Fin 2)) :=
  [.rotate 0, .rotationSave 0, .rotationPush 0 true, .rotationPush 0 true, .rotationPush 0 true,
    .rotationCommit 0, .start, .job .goesOn, .drop .goesOn, .drop .goesOn]

/-- The rotation loaded the site before the drop, and cannot reach it now. -/
def takenBack : List (Action (Fin 2)) :=
  .rotate 0 :: dropBegins

/-- The rest of the rotation, and the job it queues. -/
def setUpAgain : List (Action (Fin 2)) :=
  [.rotationSave 0, .rotationPush 0 false, .rotationPush 0 false, .rotationPush 0 false,
    .rotationCommit 0, .start, .job .goesOn]

end SuiteCloud.Hosting.Drops
