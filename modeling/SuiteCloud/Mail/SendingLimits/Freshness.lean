/-
**A changed sending limit: `get_limits` beside the saves of Mail Accounts.**

`get_limits` and `clear_limits_after_commit` of `suite_cloud/mail/sending_limits.py`, with
`clear_cached_limits`, `after_insert` and `on_trash` of `mail_account.py`. The state is that of
`SuiteCloud.Mail.SendingLimits.Model` with what the question needs beside it: the rows each commit
left, the clears that commits owe, and the view of each call's transaction. The request a call comes
with was authenticated in the same transaction, so its view may be older than the call.

### What is proved

* `project_step` — **the simulation**: seen through `Tracked.project`, every step is one of
  `SuiteCloud.Library.CacheAside` or none at all.
* `limit_takes_effect` — **in every timely run a call that starts after the clear of a change is
  decided with the new limits**, or those of a later change.
* `limit_has_no_effect` — **without that it may be decided with the old ones**: a call that read the
  account before the commit writes its limits back after the clear.
-/

import SuiteCloud.Library.CacheAside
import SuiteCloud.Mail.SendingLimits.Steps

set_option linter.unusedSectionVars false

namespace SuiteCloud.Mail.SendingLimits

open SuiteCloud.Library

variable {Account Cluster Call : Type}

/-! ### Commits, clears and views -/

/-- The state with the rows each commit left, the clears owed and run, and each call's view. `marks`
records the last cleared change of the account when the call started; no code reads it. -/
structure Tracked (Account Cluster Call : Type) where
  base : State Account Cluster Call
  commits : ℕ
  tables : ℕ → Account → Option (Limits Cluster)
  owed : List (Account × ℕ)
  cleared : Account → ℕ
  views : Call → ReadView ℕ
  marks : Call → ℕ

/-- Any Mail Accounts, no cache, no call. -/
def Tracked.initial (now : ℕ) (mailAccounts : Account → Option (Limits Cluster)) :
    Tracked Account Cluster Call where
  base := State.initial now mailAccounts
  commits := 0
  tables := fun _ => mailAccounts
  owed := []
  cleared := fun _ => 0
  views := fun _ => .unopened
  marks := fun _ => 0

/-- A transaction that inserts, saves or deletes a Mail Account. -/
inductive Change (Account Cluster : Type)
  | insert (account : Account) (limits : Limits Cluster)
  | save (account : Account) (limits : Limits Cluster)
  | delete (account : Account)

/-- What `get_limits` makes of a row. -/
def limitsOf (table : Account → Option (Limits Cluster)) (account : Account) : Limits Cluster :=
  (table account).getD Limits.unknown

/-- `get_limits` reads once. -/
def load (table : Account → Option (Limits Cluster)) (account : Account) : Limits Cluster × ℕ :=
  (limitsOf table account, 0)

namespace Change

def account : Change Account Cluster → Account
  | insert account _ => account
  | save account _ => account
  | delete account => account

/-- The row after the change. -/
def row : Change Account Cluster → Option (Limits Cluster)
  | insert _ limits => some limits
  | save _ limits => some limits
  | delete _ => none

/-- The limits a call gets after the change. -/
def limits (change : Change Account Cluster) : Limits Cluster := change.row.getD Limits.unknown

/-- There is such an account, or for an insert there is none. -/
def admitted (change : Change Account Cluster) (table : Account → Option (Limits Cluster)) : Bool :=
  match change with
  | insert account _ => (table account).isNone
  | save account _ => (table account).isSome
  | delete account => (table account).isSome

/-- The accounts whose limits are cleared after the commit: `after_insert` and `on_trash` always clear
them, `clear_cached_limits` where a limit or the cluster changed. -/
def clears [DecidableEq Cluster] (change : Change Account Cluster)
    (table : Account → Option (Limits Cluster)) : List Account :=
  match change with
  | insert account _ => [account]
  | save account limits => if table account = some limits then [] else [account]
  | delete account => [account]

/-- The change as one of the model. -/
def action : Change Account Cluster → Action Account Cluster Call
  | insert account limits => .saveAccount account limits
  | save account limits => .saveAccount account limits
  | delete account => .deleteAccount account

end Change

namespace Tracked

section Steps

variable [DecidableEq Account] [DecidableEq Cluster] [DecidableEq Call]

/-- A read of a call's transaction. -/
def glance (s : Tracked Account Cluster Call) (call : Call) : Tracked Account Cluster Call :=
  { s with views := Function.update s.views call ((s.views call).read s.commits) }

/-- The rows a read of the call sees. -/
def seen (s : Tracked Account Cluster Call) (call : Call) : Account → Option (Limits Cluster) :=
  s.tables ((s.views call).sees s.commits)

/-- **The next request of a call**: that of the model, but that the account is read in the view. -/
def advance (s : Tracked Account Cluster Call) (call : Call) :
    Option (Tracked Account Cluster Call) :=
  match s.base.calls call with
  | none => none
  | some recipient =>
    match recipient.phase with
    | .readAccount =>
        let limits := limitsOf (s.seen call) recipient.account
        some { s.glance call with
          base := s.base.setPhase call recipient (.writeCache limits) }
    | _ => (SendingLimits.advance s.base call).map fun base => { s with base := base }

/-- What can happen next. -/
inductive Step (Account Cluster Call : Type)
  | tick (seconds : ℕ)
  | flush
  | flushFails
  | drop (key : Key Account)
  /-- The request of a call reads something else in its transaction. -/
  | glance (call : Call)
  | start (call : Call) (cluster : Cluster) (account : Account)
  | advance (call : Call)
  | commit (change : Change Account Cluster)
  /-- The clear a commit owed. -/
  | clear (account : Account) (commit : ℕ)
  /-- The cached limits expire. -/
  | expire (account : Account)

/-- **One step.** -/
def step (s : Tracked Account Cluster Call) :
    Step Account Cluster Call → Option (Tracked Account Cluster Call)
  | .tick seconds => (SendingLimits.step s.base (.tick seconds)).map fun base => { s with base := base }
  | .flush => (SendingLimits.step s.base .flush).map fun base => { s with base := base }
  | .flushFails => (SendingLimits.step s.base .flushFails).map fun base => { s with base := base }
  | .drop key => (SendingLimits.step s.base (.drop key)).map fun base => { s with base := base }
  | .glance call => some (s.glance call)
  | .start call cluster account =>
      (SendingLimits.step s.base (.start call cluster account)).map fun base =>
        { s with base := base, marks := Function.update s.marks call (s.cleared account) }
  | .advance call => s.advance call
  | .commit change =>
      if change.admitted (s.tables s.commits) then
        (SendingLimits.step s.base change.action).map fun base =>
          { s with
            base := base
            commits := s.commits + 1
            tables := Function.update s.tables (s.commits + 1)
              (Function.update (s.tables s.commits) change.account change.row)
            owed := s.owed ++ (change.clears (s.tables s.commits)).map (·, s.commits + 1) }
      else none
  | .clear account commit =>
      if (account, commit) ∈ s.owed then
        (SendingLimits.step s.base (.clearLimits account)).map fun base =>
          { s with
            base := base
            cleared := Function.update s.cleared account (max (s.cleared account) commit)
            owed := s.owed.erase (account, commit) }
      else none
  | .expire account =>
      (SendingLimits.step s.base (.clearLimits account)).map fun base => { s with base := base }

end Steps

/-! ### The simulation -/

/-- Where a call stands with its limits. -/
def stage : Phase Cluster → CacheAside.Stage (Limits Cluster)
  | .readCache => .asking
  | .readAccount => .missed
  | .writeCache limits => .loaded limits
  | .compare limits => .answered limits
  | .runCheck limits _ _ => .answered limits
  | .readSeed limits _ _ => .answered limits
  | .runSeeded limits _ _ _ => .answered limits
  | .ignored limits => .answered limits
  | .counted limits _ _ _ => .answered limits

/-- The limits' cache, without the counters. -/
def project (s : Tracked Account Cluster Call) :
    CacheAside.State Call Account (Limits Cluster) (Account → Option (Limits Cluster)) where
  commits := s.commits
  tables := s.tables
  cache := s.base.redis.limits
  cleared := s.cleared
  owed := s.owed
  views := s.views
  calls := fun call => (s.base.calls call).map fun recipient =>
    ⟨recipient.account, s.marks call, stage recipient.phase⟩

section Simulation

variable [DecidableEq Account] [DecidableEq Cluster] [DecidableEq Call]
  {s next : Tracked Account Cluster Call}

/-- **No late load and no late store** of limits. -/
def Timely (s : Tracked Account Cluster Call) : Step Account Cluster Call → Prop
  | .advance call => CacheAside.Timely load s.project (.advance call)
  | _ => True

instance (s : Tracked Account Cluster Call) : DecidablePred s.Timely
  | .advance call => inferInstanceAs (Decidable (CacheAside.Timely load s.project (.advance call)))
  | .tick _ => isTrue trivial
  | .flush => isTrue trivial
  | .flushFails => isTrue trivial
  | .drop _ => isTrue trivial
  | .glance _ => isTrue trivial
  | .start _ _ _ => isTrue trivial
  | .commit _ => isTrue trivial
  | .clear _ _ => isTrue trivial
  | .expire _ => isTrue trivial

theorem project_base {base : State Account Cluster Call}
    (limits : base.redis.limits = s.base.redis.limits) (calls : base.calls = s.base.calls) :
    ({ s with base := base } : Tracked Account Cluster Call).project = s.project := by
  unfold project
  simp only [limits, calls]

theorem project_calls {call : Call} {recipient : Recipient Account Cluster}
    (calls : s.base.calls call = some recipient) :
    s.project.calls call = some ⟨recipient.account, s.marks call, stage recipient.phase⟩ := by
  unfold project
  simp only [calls, Option.map_some]

theorem project_update (s : Tracked Account Cluster Call) {next : Tracked Account Cluster Call}
    (call : Call) (recipient : Recipient Account Cluster) (mark : ℕ)
    (calls : next.base.calls = Function.update s.base.calls call (some recipient))
    (marks : next.marks = Function.update s.marks call mark) :
    next.project.calls = Function.update s.project.calls call
      (some ⟨recipient.account, mark, stage recipient.phase⟩) := by
  funext other
  unfold project
  simp only [calls, marks]
  by_cases same : other = call
  · subst same
    simp
  · simp [Function.update_of_ne same]

theorem project_decided {base : State Account Cluster Call} {call : Call}
    {recipient : Recipient Account Cluster} {phase : Phase Cluster}
    (here : s.base.calls call = some recipient)
    (calls : base.calls =
      Function.update s.base.calls call (some { recipient with phase := phase }))
    (limits : base.redis.limits = s.base.redis.limits) (same : stage phase = stage recipient.phase) :
    ({ s with base := base } : Tracked Account Cluster Call).project = s.project := by
  refine CacheAside.State.ext rfl rfl limits rfl rfl rfl ?_
  have unchanged := Function.update_eq_self call s.project.calls
  rw [project_calls here, ← same] at unchanged
  exact (project_update s call { recipient with phase := phase } (s.marks call) (by exact calls)
    (by simp)).trans unchanged

theorem project_ask {base : State Account Cluster Call} {call : Call}
    {recipient : Recipient Account Cluster} (here : s.base.calls call = some recipient)
    (phase : recipient.phase = .readCache)
    (moved : SendingLimits.advance s.base call = some base) :
    CacheAside.advance load s.project call =
      some ({ s with base := base } : Tracked Account Cluster Call).project := by
  have calls := project_calls here
  rw [phase] at calls
  simp only [SendingLimits.advance, here, phase] at moved
  have cache : s.project.cache = s.base.redis.limits := rfl
  cases found : s.base.redis.limits recipient.account with
  | some limits =>
    rw [found] at moved
    cases moved
    simp only [CacheAside.advance, calls, stage, cache, found]
    refine congrArg some (CacheAside.State.ext rfl rfl rfl rfl rfl rfl ?_)
    exact (project_update s call { recipient with phase := .compare limits } (s.marks call)
      (by rfl) (by simp)).symm
  | none =>
    rw [found] at moved
    cases moved
    simp only [CacheAside.advance, calls, stage, cache, found]
    refine congrArg some (CacheAside.State.ext rfl rfl rfl rfl rfl rfl ?_)
    exact (project_update s call { recipient with phase := .readAccount } (s.marks call)
      (by rfl) (by simp)).symm

theorem project_moves {base : State Account Cluster Call} {call : Call}
    {recipient : Recipient Account Cluster} (here : s.base.calls call = some recipient)
    (asked : recipient.phase ≠ .readCache) (elsewhere : recipient.phase ≠ .readAccount)
    (moved : SendingLimits.advance s.base call = some base) :
    ({ s with base := base } : Tracked Account Cluster Call).project = s.project ∨
      CacheAside.advance load s.project call =
        some ({ s with base := base } : Tracked Account Cluster Call).project := by
  obtain ⟨recipient', here', cases'⟩ := advance_cases moved
  obtain rfl : recipient = recipient' := Option.some.inj (here.symm.trans here')
  have calls := project_calls here
  obtain ⟨cluster, account, phase⟩ := recipient
  obtain ⟨after, moves, rfl⟩ | ⟨limits, day, month, seed, _, _, asks, -, -, rfl⟩ := cases'
  · cases moves with
    | hit limits cached => exact absurd rfl asked
    | miss => exact absurd rfl asked
    | read => exact absurd rfl elsewhere
    | cached limits =>
      refine .inr ?_
      simp only [CacheAside.advance, calls, stage]
      refine congrArg some (CacheAside.State.ext rfl rfl rfl rfl rfl rfl ?_)
      exact (project_update s call ⟨cluster, account, .compare limits⟩ (s.marks call) (by rfl)
        (by simp)).symm
    | enter limits own => exact .inl (project_decided here rfl rfl rfl)
    | ignore limits other => exact .inl (project_decided here rfl rfl rfl)
    | missing limits day month => exact .inl (project_decided here rfl rfl rfl)
    | seed limits day month => exact .inl (project_decided here rfl rfl rfl)
  · cases asks with
    | unseeded => exact .inl (project_decided here rfl rfl rfl)
    | seeded => exact .inl (project_decided here rfl rfl rfl)

theorem project_advance {call : Call} (taken : s.advance call = some next) :
    next.project = s.project ∨ CacheAside.advance load s.project call = some next.project := by
  unfold advance at taken
  split at taken
  · cases taken
  · next recipient here =>
    have calls := project_calls here
    split at taken
    · next phase =>
      cases taken
      refine .inr ?_
      rw [phase] at calls
      simp only [CacheAside.advance, calls, stage]
      refine congrArg some (CacheAside.State.ext rfl rfl rfl rfl rfl rfl ?_)
      exact (project_update s call { recipient with
        phase := .writeCache (limitsOf (s.seen call) recipient.account) } (s.marks call) (by rfl)
        (by simp [glance])).symm
    · next elsewhere =>
      obtain ⟨base, moved, rfl⟩ := Option.map_eq_some_iff.mp taken
      by_cases asking : recipient.phase = .readCache
      · exact .inr (project_ask here asking moved)
      · exact project_moves here asking elsewhere moved

theorem project_clear {account : Account} {commit : ℕ}
    (taken : s.step (.clear account commit) = some next) :
    CacheAside.step load s.project (.clear account commit) = some next.project := by
  simp only [step] at taken
  split at taken
  · next owed =>
    obtain ⟨base, moved, rfl⟩ := Option.map_eq_some_iff.mp taken
    cases steps_of_step moved
    exact if_pos owed
  · cases taken

/-- **The simulation**: a timely step is one of the cache, or does not touch it. -/
theorem project_step {action : Step Account Cluster Call} (timely : s.Timely action)
    (taken : s.step action = some next) :
    next.project = s.project ∨ ∃ asked, CacheAside.Timely load s.project asked ∧
      CacheAside.step load s.project asked = some next.project := by
  cases action with
  | tick seconds =>
    cases taken
    exact .inl (project_base rfl rfl)
  | flush =>
    cases taken
    have frame := flushStep_frame s.base
    exact .inl (project_base frame.limits frame.calls)
  | flushFails =>
    obtain ⟨base, moved, rfl⟩ := Option.map_eq_some_iff.mp taken
    cases steps_of_step moved
    exact .inl (project_base rfl rfl)
  | drop key =>
    obtain ⟨base, moved, rfl⟩ := Option.map_eq_some_iff.mp taken
    cases steps_of_step moved
    exact .inl (project_base rfl rfl)
  | glance call =>
    cases taken
    exact .inr ⟨.glance call, trivial, rfl⟩
  | start call cluster account =>
    obtain ⟨base, moved, rfl⟩ := Option.map_eq_some_iff.mp taken
    cases steps_of_step moved with
    | start _ _ _ absent =>
      refine .inr ⟨.start call account, trivial, ?_⟩
      have absent : s.project.calls call = none := by
        unfold project
        simp only [absent, Option.map_none]
      simp only [CacheAside.step, absent]
      refine congrArg some (CacheAside.State.ext rfl rfl rfl rfl rfl rfl ?_)
      exact (project_update s call ⟨cluster, account, .readCache⟩ (s.cleared account) (by rfl)
        (by rfl)).symm
  | advance call =>
    refine (project_advance taken).imp id fun moved => ⟨.advance call, timely, moved⟩
  | commit change =>
    simp only [step] at taken
    split at taken
    · obtain ⟨base, moved, rfl⟩ := Option.map_eq_some_iff.mp taken
      refine .inr ⟨.commit (Function.update (s.tables s.commits) change.account change.row)
        (change.clears (s.tables s.commits)), trivial, ?_⟩
      cases change with
      | insert account limits =>
        cases steps_of_step moved
        rfl
      | save account limits =>
        cases steps_of_step moved
        rfl
      | delete account =>
        cases steps_of_step moved
        rfl
    · cases taken
  | clear account commit => exact .inr ⟨.clear account commit, trivial, project_clear taken⟩
  | expire account =>
    cases taken
    exact .inr ⟨.expire account, trivial, rfl⟩

theorem project_reaches (reached : Reaches step Timely s next) :
    Reaches (CacheAside.step load) (CacheAside.Timely load) s.project next.project :=
  reached.projects project fun timely taken => project_step timely taken

/-! ### A changed limit -/

/-- The limits a call is decided with, once `get_limits` has returned. -/
def decidedWith (s : Tracked Account Cluster Call) (call : Call) : Option (Limits Cluster) :=
  (s.base.calls call).bind fun recipient =>
    match stage recipient.phase with
    | .answered limits => some limits
    | _ => none

theorem step_commit {change : Change Account Cluster} (taken : s.step (.commit change) = some next) :
    next.commits = s.commits + 1 ∧ next.tables next.commits change.account = change.row := by
  simp only [step] at taken
  split at taken
  · obtain ⟨base, -, rfl⟩ := Option.map_eq_some_iff.mp taken
    exact ⟨rfl, by simp⟩
  · cases taken

/-- **A changed limit takes effect on the next recipient**, in timely runs: whatever happens before
the insert, save or delete of an account, between its commit and the clear of the cached limits, and
after, a call that starts after the clear is decided with the new limits, or those of a later
commit. -/
theorem limit_takes_effect {now : ℕ} {mailAccounts : Account → Option (Limits Cluster)}
    {before saved waiting cleared after : Tracked Account Cluster Call}
    (reached : Reaches step Timely (initial now mailAccounts) before)
    {change : Change Account Cluster} (commit : before.step (.commit change) = some saved)
    (meanwhile : Reaches step Timely saved waiting)
    (clear : waiting.step (.clear change.account saved.commits) = some cleared)
    (later : Reaches step Timely cleared after)
    {call : Call} (unstarted : cleared.base.calls call = none)
    {recipient : Recipient Account Cluster} (calls : after.base.calls call = some recipient)
    (account : recipient.account = change.account)
    {limits : Limits Cluster} (decided : after.decidedWith call = some limits) :
    limits = change.limits ∨ ∃ newer, saved.commits < newer ∧ newer ≤ after.commits ∧
      limits = limitsOf (after.tables newer) change.account := by
  have timely : before.Timely (.commit change) := trivial
  have toWaiting := (reached.next timely commit).trans meanwhile
  have cached := project_reaches toWaiting
  have absent : cleared.project.calls call = none := by
    unfold project
    simp only [unstarted, Option.map_none]
  have lookup := project_calls calls
  have answered : stage recipient.phase = .answered limits := by
    simp only [decidedWith, calls, Option.bind_some] at decided
    split at decided
    · next found => rw [found, Option.some.inj decided]
    · cases decided
  have clears := project_clear clear
  rw [← account] at clears
  obtain ⟨newer, since, bounded, found⟩ := CacheAside.answered_after_clear cached clears absent
    (project_reaches later) lookup answered
  rw [account] at found
  by_cases same : newer = saved.commits
  · refine .inl ?_
    subst same
    -- what the change left is still on record
    have cleans : waiting.Timely (.clear change.account saved.commits) := trivial
    have kept := CacheAside.Extends.of_reaches
      (project_reaches (meanwhile.trans ((Reaches.single _ cleans clear).trans later)))
    have row : after.tables saved.commits = saved.tables saved.commits := kept.tables_eq _ le_rfl
    rw [← found]
    show limitsOf (after.tables saved.commits) change.account = _
    rw [limitsOf, row, (step_commit commit).2]
    rfl
  · exact .inr ⟨newer, lt_of_le_of_ne since (Ne.symm same), bounded, found.symm⟩

end Simulation

/-! ### A late store -/

namespace Example

/-- The accounts of the runs below: one, with a daily limit of 100. -/
def mailAccounts (account : String) : Option (Limits String) :=
  if account = "bob@acme.com" then some ⟨some "blr", 100, 1000⟩ else none

/-- Its limit is lowered. -/
def change : Change String String := .save "bob@acme.com" ⟨some "blr", 50, 1000⟩

/-- A first call misses and reads the account. -/
def reads : List (Step String String ℕ) :=
  [.start 1 "blr" "bob@acme.com", .advance 1, .advance 1]

/-- A second call has its limits from the cache. -/
def asks : List (Step String String ℕ) := [.start 2 "blr" "bob@acme.com", .advance 2]

end Example

open Example in
/-- **The first call stores the limits it read before the commit after the clear**, and the second
call, which starts then, is decided with the old limit. -/
theorem limit_has_no_effect :
    ∃ before saved cleared after : Tracked String String ℕ,
      Reaches step anyStep (initial 0 mailAccounts) before ∧
      before.step (.commit change) = some saved ∧
      saved.step (.clear change.account saved.commits) = some cleared ∧
      Reaches step anyStep cleared after ∧
      cleared.base.calls 2 = none ∧
      after.commits = saved.commits ∧
      after.decidedWith 2 = some ⟨some "blr", 100, 1000⟩ ∧
      change.limits = ⟨some "blr", 50, 1000⟩ := by
  have ran : (run step (initial 0 mailAccounts) reads).bind (fun before =>
      (before.step (.commit change)).bind fun saved =>
        (saved.step (.clear change.account saved.commits)).bind fun cleared =>
          (run step cleared (.advance 1 :: asks)).map fun after =>
            decide ((cleared.base.calls 2).isNone ∧ after.commits = saved.commits ∧
              after.decidedWith 2 = some ⟨some "blr", 100, 1000⟩)) = some true := by
    decide
  obtain ⟨before, toBefore, ran⟩ := Option.bind_eq_some_iff.mp ran
  obtain ⟨saved, toSaved, ran⟩ := Option.bind_eq_some_iff.mp ran
  obtain ⟨cleared, toCleared, ran⟩ := Option.bind_eq_some_iff.mp ran
  obtain ⟨after, toAfter, seen⟩ := Option.map_eq_some_iff.mp ran
  obtain ⟨unstarted, commits, decided⟩ := of_decide_eq_true seen
  exact ⟨before, saved, cleared, after,
    reaches_of_run (runMeets_of_forall fun _ _ _ => trivial) toBefore, toSaved, toCleared,
    reaches_of_run (runMeets_of_forall fun _ _ _ => trivial) toAfter,
    Option.isNone_iff_eq_none.mp unstarted, commits, decided, rfl⟩

open Example in
/-- The same two calls where the first one stores before the commit: the second one reads the new
limit. -/
theorem limit_takes_effect_second :
    ∃ saved cleared after : Tracked String String ℕ,
      saved.step (.clear change.account saved.commits) = some cleared ∧
      Reaches step Timely cleared after ∧
      after.decidedWith 2 = some ⟨some "blr", 50, 1000⟩ ∧
      ((⟨some "blr", 50, 1000⟩ : Limits String) = change.limits ∨
        ∃ newer, saved.commits < newer ∧ newer ≤ after.commits ∧
          (⟨some "blr", 50, 1000⟩ : Limits String) =
            limitsOf (after.tables newer) change.account) := by
  have ran : (run step (initial 0 mailAccounts) (reads ++ [Step.advance 1])).bind (fun before =>
      (before.step (.commit change)).bind fun saved =>
        (saved.step (.clear change.account saved.commits)).bind fun cleared =>
          (run step cleared (asks ++ [Step.advance 2, .advance 2])).map fun after =>
            decide (RunMeets step Timely (initial 0 mailAccounts) (reads ++ [Step.advance 1]) ∧
              RunMeets step Timely cleared (asks ++ [Step.advance 2, .advance 2]) ∧
              (cleared.base.calls 2).isNone ∧
              (after.base.calls 2).map (·.account) = some change.account ∧
              after.decidedWith 2 = some ⟨some "blr", 50, 1000⟩)) = some true := by
    decide
  obtain ⟨before, toBefore, ran⟩ := Option.bind_eq_some_iff.mp ran
  obtain ⟨saved, toSaved, ran⟩ := Option.bind_eq_some_iff.mp ran
  obtain ⟨cleared, toCleared, ran⟩ := Option.bind_eq_some_iff.mp ran
  obtain ⟨after, toAfter, seen⟩ := Option.map_eq_some_iff.mp ran
  obtain ⟨meets, meetsLater, unstarted, called, decided⟩ := of_decide_eq_true seen
  obtain ⟨recipient, calls, account⟩ := Option.map_eq_some_iff.mp called
  have later := reaches_of_run meetsLater toAfter
  exact ⟨saved, cleared, after, toCleared, later, decided,
    limit_takes_effect (reaches_of_run meets toBefore) toSaved .start toCleared later
      (Option.isNone_iff_eq_none.mp unstarted) calls account decided⟩

end Tracked

end SuiteCloud.Mail.SendingLimits
