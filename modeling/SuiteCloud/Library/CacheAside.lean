/-
**Cache-aside: look in the cache, else load and store; a change clears the entry after its commit.**

Calls of many processes look a key up. A call asks the cache; on a miss it reads the database, in one
or more reads through the view of its own transaction, writes what it loaded to the cache and answers
with it. A change commits new data and owes a clear of the keys it names; the clear runs some time
later. Every one of these is a step of its own, so they interleave freely.

Nothing orders a call's load and its store against the clear between them: a call that loaded before
the commit may store after the clear. `Timely` says that this does not happen.

### What is proved

* `Fresh.step` — under `Timely`, one step keeps every entry and every loaded value recent enough.
* `answered_since` — **the run lemma**: in a timely run every call answers with what some commit left
  that is not older than the last cleared change of its key before the call.
* `answered_after_clear` — so a call that starts after the clear of a change answers with that change
  or a later one.
-/

import Mathlib.Logic.Function.Basic
import Mathlib.Order.Lattice
import SuiteCloud.Library.ReadView
import SuiteCloud.Library.Transition

set_option linter.unusedSectionVars false

namespace SuiteCloud.Library.CacheAside

variable {Process Key Value Table : Type*}

/-- Where a call stands. -/
inductive Stage (Value : Type*)
  /-- It asks the cache next. -/
  | asking
  /-- The cache had nothing: the first read comes next. -/
  | missed
  /-- Another read comes next, and `left` reads after it. -/
  | reading (left : ℕ)
  /-- It has what it came for, and stores it next. -/
  | loaded (value : Value)
  | answered (value : Value)

/-- A call for a key. `mark` records the last cleared change of the key when the call started; no
code reads it. -/
structure Call (Key Value : Type*) where
  key : Key
  mark : ℕ
  stage : Stage Value

/-- The commits, numbered, with the data each left; the cache; per key the last change whose clear
has run; the clears still owed; the view of each process' transaction, and its call. -/
@[ext] structure State (Process Key Value Table : Type*) where
  commits : ℕ
  tables : ℕ → Table
  cache : Key → Option Value
  cleared : Key → ℕ
  owed : List (Key × ℕ)
  views : Process → ReadView ℕ
  calls : Process → Option (Call Key Value)

/-- Some data, nothing cached, nobody calling. -/
def State.initial (table : Table) : State Process Key Value Table where
  commits := 0
  tables := fun _ => table
  cache := fun _ => none
  cleared := fun _ => 0
  owed := []
  views := fun _ => .unopened
  calls := fun _ => none

inductive Action (Process Key Table : Type*)
  /-- The process reads something else in its transaction. -/
  | glance (process : Process)
  | start (process : Process) (key : Key)
  | advance (process : Process)
  /-- A change commits, owing the clear of some keys. -/
  | commit (table : Table) (owes : List Key)
  /-- The clear a commit owed. -/
  | clear (key : Key) (commit : ℕ)
  /-- An entry expires or is evicted. -/
  | expire (key : Key)

/-- What a call does after a read: more reads, or it has the value. -/
def afterRead (value : Value) : ℕ → Stage Value
  | 0 => .loaded value
  | left + 1 => .reading left

section Steps

variable [DecidableEq Process] [DecidableEq Key]
variable (load : Table → Key → Value × ℕ)

def State.setStage (s : State Process Key Value Table) (process : Process)
    (call : Call Key Value) (stage : Stage Value) : State Process Key Value Table :=
  { s with calls := Function.update s.calls process (some { call with stage := stage }) }

/-- The commit a read of the process sees. -/
def State.seen (s : State Process Key Value Table) (process : Process) : ℕ :=
  (s.views process).sees s.commits

/-- A read of the process: its view is open from here on. -/
def State.glance (s : State Process Key Value Table) (process : Process) :
    State Process Key Value Table :=
  { s with views := Function.update s.views process ((s.views process).read s.commits) }

/-- **The next step of a call.** `load` gives a key's value and the reads it takes after the
first. -/
def advance (s : State Process Key Value Table) (process : Process) :
    Option (State Process Key Value Table) :=
  match s.calls process with
  | none => none
  | some call =>
    match call.stage with
    | .asking =>
        match s.cache call.key with
        | some value => some (s.setStage process call (.answered value))
        | none => some (s.setStage process call .missed)
    | .missed =>
        let found := load (s.tables (s.seen process)) call.key
        some ((s.glance process).setStage process call (afterRead found.1 found.2))
    | .reading left =>
        let found := load (s.tables (s.seen process)) call.key
        some ((s.glance process).setStage process call (afterRead found.1 left))
    | .loaded value =>
        some ({ s with cache := Function.update s.cache call.key (some value) }.setStage process call
          (.answered value))
    | .answered _ => none

/-- **One step of the whole system.** -/
def step (s : State Process Key Value Table) :
    Action Process Key Table → Option (State Process Key Value Table)
  | .glance process => some (s.glance process)
  | .start process key =>
      match s.calls process with
      | some _ => none
      | none =>
          some { s with
            calls := Function.update s.calls process (some ⟨key, s.cleared key, .asking⟩) }
  | .advance process => advance load s process
  | .commit table owes =>
      some { s with
        commits := s.commits + 1
        tables := Function.update s.tables (s.commits + 1) table
        owed := s.owed ++ owes.map (·, s.commits + 1) }
  | .clear key commit =>
      if (key, commit) ∈ s.owed then
        some { s with
          cache := Function.update s.cache key none
          cleared := Function.update s.cleared key (max (s.cleared key) commit)
          owed := s.owed.erase (key, commit) }
      else none
  | .expire key => some { s with cache := Function.update s.cache key none }

/-! ### Timely runs -/

/-- The value is what some commit from `mark` on left under the key. -/
def Since (s : State Process Key Value Table) (key : Key) (mark : ℕ) (value : Value) : Prop :=
  ∃ commit, mark ≤ commit ∧ commit ≤ s.commits ∧ (load (s.tables commit) key).1 = value

/-- A call loads what is not older than the changes cleared before it started, and stores what is not
older than the changes cleared by then. -/
def Call.InTime (s : State Process Key Value Table) (process : Process) (call : Call Key Value) :
    Stage Value → Prop
  | .missed => Since load s call.key call.mark (load (s.tables (s.seen process)) call.key).1
  | .loaded value => Since load s call.key (s.cleared call.key) value
  | .asking => True
  | .reading _ => True
  | .answered _ => True

/-- **No late load and no late store.** -/
def Timely (s : State Process Key Value Table) : Action Process Key Table → Prop
  | .advance process => ∀ call ∈ s.calls process, call.InTime load s process call.stage
  | _ => True

instance [DecidableEq Value] (s : State Process Key Value Table) (key : Key) (mark : ℕ)
    (value : Value) : Decidable (Since load s key mark value) :=
  decidable_of_iff (∃ commit ≤ s.commits, mark ≤ commit ∧ (load (s.tables commit) key).1 = value)
    (exists_congr fun _ => and_left_comm)

instance [DecidableEq Value] (s : State Process Key Value Table) (process : Process)
    (call : Call Key Value) : DecidablePred (call.InTime load s process)
  | .missed => inferInstanceAs (Decidable (Since load s call.key call.mark _))
  | .loaded _ => inferInstanceAs (Decidable (Since load s call.key (s.cleared call.key) _))
  | .asking => isTrue trivial
  | .reading _ => isTrue trivial
  | .answered _ => isTrue trivial

instance [DecidableEq Value] (s : State Process Key Value Table) : DecidablePred (Timely load s)
  | .advance process =>
      inferInstanceAs (Decidable (∀ call ∈ s.calls process, call.InTime load s process call.stage))
  | .glance _ => isTrue trivial
  | .start _ _ => isTrue trivial
  | .commit _ _ => isTrue trivial
  | .clear _ _ => isTrue trivial
  | .expire _ => isTrue trivial

/-- What a call holds is recent enough for it. -/
def Call.Recent (s : State Process Key Value Table) (process : Process) (call : Call Key Value) :
    Prop :=
  match call.stage with
  | .asking => True
  | .missed => True
  | .reading _ => ∃ commit, s.views process = .opened commit ∧
      Since load s call.key call.mark (load (s.tables commit) call.key).1
  | .loaded value => Since load s call.key call.mark value
  | .answered value => Since load s call.key call.mark value

/-- **The invariant of a timely run.** -/
structure Fresh (s : State Process Key Value Table) : Prop where
  owed_le : ∀ entry ∈ s.owed, entry.2 ≤ s.commits
  cleared_le : ∀ key, s.cleared key ≤ s.commits
  viewed : ∀ process commit, s.views process = .opened commit → commit ≤ s.commits
  cached : ∀ key value, s.cache key = some value → Since load s key (s.cleared key) value
  marked : ∀ process call, s.calls process = some call → call.mark ≤ s.cleared call.key
  recent : ∀ process call, s.calls process = some call → call.Recent load s process

variable {load} {s next : State Process Key Value Table}

theorem Since.mono {key : Key} {mark earlier : ℕ} {value : Value}
    (since : Since load s key mark value) (le : earlier ≤ mark) :
    Since load s key earlier value := by
  obtain ⟨commit, from_mark, bounded, found⟩ := since
  exact ⟨commit, le.trans from_mark, bounded, found⟩

/-- A later state that keeps the data the commits left. -/
structure Extends (s next : State Process Key Value Table) : Prop where
  commits_le : s.commits ≤ next.commits
  tables_eq : ∀ commit ≤ s.commits, next.tables commit = s.tables commit

theorem Extends.of_eq (commits : next.commits = s.commits) (tables : next.tables = s.tables) :
    Extends s next :=
  ⟨commits.ge, fun _ _ => by rw [tables]⟩

theorem Since.extend {key : Key} {mark : ℕ} {value : Value} (since : Since load s key mark value)
    (extends_ : Extends s next) : Since load next key mark value := by
  obtain ⟨commit, from_mark, bounded, found⟩ := since
  exact ⟨commit, from_mark, bounded.trans extends_.commits_le,
    by rw [extends_.tables_eq commit bounded]; exact found⟩

/-- What a call holds stays recent while the data of the commits and the open views are kept. -/
theorem Call.Recent.extend {process : Process} {call : Call Key Value}
    (recent : call.Recent load s process) (extends_ : Extends s next)
    (views : ∀ commit, s.views process = .opened commit →
      commit ≤ s.commits ∧ next.views process = .opened commit) :
    call.Recent load next process := by
  unfold Call.Recent at recent ⊢
  split at recent
  · trivial
  · trivial
  · obtain ⟨commit, opened, since⟩ := recent
    obtain ⟨bounded, still⟩ := views commit opened
    refine ⟨commit, still, ?_⟩
    rw [extends_.tables_eq commit bounded]
    exact since.extend extends_
  · exact recent.extend extends_
  · exact recent.extend extends_

/-! ### One step -/

theorem seen_le (fresh : Fresh load s) (process : Process) : s.seen process ≤ s.commits := by
  unfold State.seen
  cases opened : s.views process with
  | unopened => exact le_rfl
  | opened commit => exact fresh.viewed process commit opened

theorem views_glance (process : Process) :
    (s.glance process).views process = .opened (s.seen process) := by
  unfold State.glance State.seen
  simp only [Function.update_self]
  cases s.views process <;> rfl

theorem views_glance_of_opened {process other : Process} {commit : ℕ}
    (opened : s.views other = .opened commit) :
    (s.glance process).views other = .opened commit := by
  by_cases same : other = process
  · subst same
    rw [views_glance, State.seen, opened]
    rfl
  · simpa [State.glance, Function.update_of_ne same] using opened

theorem Fresh.glance (fresh : Fresh load s) (process : Process) :
    Fresh load (s.glance process) where
  owed_le := fresh.owed_le
  cleared_le := fresh.cleared_le
  viewed other commit opened := by
    by_cases same : other = process
    · subst same
      rw [views_glance] at opened
      cases opened
      exact seen_le fresh other
    · simp only [State.glance, Function.update_of_ne same] at opened
      exact fresh.viewed other commit opened
  cached := fresh.cached
  marked := fresh.marked
  recent other call calls :=
    (fresh.recent other call calls).extend (.of_eq rfl rfl) fun commit opened =>
      ⟨fresh.viewed other commit opened, views_glance_of_opened opened⟩

/-- A process may have any call whose mark is cleared and whose value is recent enough. -/
theorem Fresh.setCall (fresh : Fresh load s) {process : Process} {call : Call Key Value}
    (marked : call.mark ≤ s.cleared call.key) (recent : call.Recent load s process) :
    Fresh load { s with calls := Function.update s.calls process (some call) } where
  owed_le := fresh.owed_le
  cleared_le := fresh.cleared_le
  viewed := fresh.viewed
  cached := fresh.cached
  marked other found calls := by
    by_cases same : other = process
    · subst same
      obtain rfl : call = found := by simpa using calls
      exact marked
    · simp only [Function.update_of_ne same] at calls
      exact fresh.marked other found calls
  recent other found calls := by
    by_cases same : other = process
    · subst same
      obtain rfl : call = found := by simpa using calls
      exact recent
    · simp only [Function.update_of_ne same] at calls
      exact fresh.recent other found calls

/-- A call may move to any stage whose value is recent enough for it. -/
theorem Fresh.setStage (fresh : Fresh load s) {process : Process} {call : Call Key Value}
    (calls : s.calls process = some call) {stage : Stage Value}
    (recent : ({ call with stage := stage } : Call Key Value).Recent load s process) :
    Fresh load (s.setStage process call stage) := by
  have marked := fresh.marked process call calls
  exact fresh.setCall marked recent

/-- A read of a call: its view is open, and it moves on with a value of that view. -/
theorem Fresh.read (fresh : Fresh load s) {process : Process} {call : Call Key Value}
    (calls : s.calls process = some call)
    (since : Since load s call.key call.mark (load (s.tables (s.seen process)) call.key).1)
    (left : ℕ) :
    Fresh load ((s.glance process).setStage process call
      (afterRead (load (s.tables (s.seen process)) call.key).1 left)) := by
  refine (fresh.glance process).setStage calls ?_
  cases left with
  | zero => exact since
  | succ left => exact ⟨s.seen process, views_glance process, since⟩

/-- An entry that is recent enough may be stored. -/
theorem Fresh.store (fresh : Fresh load s) {key : Key} {value : Value}
    (since : Since load s key (s.cleared key) value) :
    Fresh load { s with cache := Function.update s.cache key (some value) } where
  owed_le := fresh.owed_le
  cleared_le := fresh.cleared_le
  viewed := fresh.viewed
  cached other found entry := by
    by_cases same : other = key
    · subst same
      obtain rfl : value = found := by simpa using entry
      exact since
    · simp only [Function.update_of_ne same] at entry
      exact fresh.cached other found entry
  marked := fresh.marked
  recent := fresh.recent

/-- What the next step of a call leaves of the rest: only its own call moves on. -/
theorem advance_calls {process : Process} (taken : advance load s process = some next) :
    ∃ call stage, s.calls process = some call ∧ next.cleared = s.cleared ∧
      next.calls = Function.update s.calls process (some { call with stage := stage }) ∧
      next.commits = s.commits ∧ next.tables = s.tables := by
  unfold CacheAside.advance at taken
  split at taken
  · cases taken
  · next call calls =>
    split at taken
    · split at taken
      · cases taken
        exact ⟨call, _, calls, rfl, rfl, rfl, rfl⟩
      · cases taken
        exact ⟨call, _, calls, rfl, rfl, rfl, rfl⟩
    · cases taken
      exact ⟨call, _, calls, rfl, rfl, rfl, rfl⟩
    · cases taken
      exact ⟨call, _, calls, rfl, rfl, rfl, rfl⟩
    · cases taken
      exact ⟨call, _, calls, rfl, rfl, rfl, rfl⟩
    · cases taken

theorem Fresh.advance (fresh : Fresh load s) {process : Process}
    (timely : Timely load s (.advance process)) (taken : advance load s process = some next) :
    Fresh load next := by
  unfold CacheAside.advance at taken
  split at taken
  · cases taken
  · next call calls =>
    have due := timely call calls
    have recent := fresh.recent process call calls
    unfold Call.Recent at recent
    split at taken
    · split at taken
      · next value entry =>
        cases taken
        exact fresh.setStage calls
          ((fresh.cached call.key value entry).mono (fresh.marked process call calls))
      · cases taken
        exact fresh.setStage calls trivial
    · next stage =>
      cases taken
      rw [stage] at due
      exact fresh.read calls due _
    · next left stage =>
      cases taken
      rw [stage] at recent
      obtain ⟨commit, opened, since⟩ := recent
      refine fresh.read calls ?_ left
      rw [State.seen, opened]
      exact since
    · next value stage =>
      cases taken
      rw [stage] at due recent
      exact (fresh.store due).setStage calls recent
    · cases taken

theorem extends_commit (table : Table) (owed : List (Key × ℕ)) :
    Extends s { s with
      commits := s.commits + 1
      tables := Function.update s.tables (s.commits + 1) table
      owed := owed } where
  commits_le := Nat.le_succ _
  tables_eq commit bounded := Function.update_of_ne (by omega) _ _

theorem Fresh.commit (fresh : Fresh load s) (table : Table) (owes : List Key) :
    Fresh load { s with
      commits := s.commits + 1
      tables := Function.update s.tables (s.commits + 1) table
      owed := s.owed ++ owes.map (·, s.commits + 1) } where
  owed_le entry member := by
    rcases List.mem_append.mp member with earlier | new
    · exact (fresh.owed_le entry earlier).trans (Nat.le_succ _)
    · obtain ⟨_, _, rfl⟩ := List.mem_map.mp new
      exact le_rfl
  cleared_le key := (fresh.cleared_le key).trans (Nat.le_succ _)
  viewed process commit opened := (fresh.viewed process commit opened).trans (Nat.le_succ _)
  cached key value entry := (fresh.cached key value entry).extend (extends_commit table _)
  marked := fresh.marked
  recent process call calls :=
    (fresh.recent process call calls).extend (extends_commit table _) fun commit opened =>
      ⟨fresh.viewed process commit opened, opened⟩

/-- A clear, or an expiry where `commit` is no change: the entry goes, and what was cleared
before stays cleared. -/
theorem Fresh.clear (fresh : Fresh load s) (key : Key) {commit : ℕ} (bounded : commit ≤ s.commits)
    {owed : List (Key × ℕ)} (kept : owed ⊆ s.owed) :
    Fresh load { s with
      cache := Function.update s.cache key none
      cleared := Function.update s.cleared key (max (s.cleared key) commit)
      owed := owed } where
  owed_le entry member := fresh.owed_le entry (kept member)
  cleared_le other := by
    by_cases same : other = key
    · subst same
      simpa using ⟨fresh.cleared_le other, bounded⟩
    · simpa [Function.update_of_ne same] using fresh.cleared_le other
  viewed := fresh.viewed
  cached other value entry := by
    by_cases same : other = key
    · subst same
      simp at entry
    · simp only [Function.update_of_ne same] at entry ⊢
      exact fresh.cached other value entry
  marked process call calls := by
    refine (fresh.marked process call calls).trans ?_
    by_cases same : call.key = key
    · simp [same]
    · simp [Function.update_of_ne same]
  recent := fresh.recent

theorem Fresh.expire (fresh : Fresh load s) (key : Key) :
    Fresh load { s with cache := Function.update s.cache key none } := by
  have cleared := fresh.clear key (Nat.zero_le s.commits) (List.Subset.refl s.owed)
  rwa [Nat.max_zero, Function.update_eq_self] at cleared

theorem Fresh.step (fresh : Fresh load s) {action : Action Process Key Table}
    (timely : Timely load s action) (taken : step load s action = some next) :
    Fresh load next := by
  cases action with
  | glance process =>
    cases taken
    exact fresh.glance process
  | start process key =>
    simp only [CacheAside.step] at taken
    split at taken
    · cases taken
    · cases taken
      exact fresh.setCall le_rfl trivial
  | advance process => exact fresh.advance timely taken
  | commit table owes =>
    cases taken
    exact fresh.commit table owes
  | clear key commit =>
    simp only [CacheAside.step] at taken
    split at taken
    · next owed =>
      cases taken
      exact fresh.clear key (fresh.owed_le _ owed) List.erase_subset
    · cases taken
  | expire key =>
    cases taken
    exact fresh.expire key

theorem fresh_initial (table : Table) :
    Fresh load (State.initial table : State Process Key Value Table) where
  owed_le _ member := nomatch member
  cleared_le _ := le_rfl
  viewed _ _ opened := nomatch opened
  cached _ _ entry := nomatch entry
  marked _ _ calls := nomatch calls
  recent _ _ calls := nomatch calls

/-- **The run lemma.** In a timely run a call answers with what some commit left that is not older
than the last cleared change of its key before the call. -/
theorem answered_since {table : Table}
    (reached : Reaches (step load) (Timely load) (State.initial table) s) {process : Process}
    {call : Call Key Value} (calls : s.calls process = some call) {value : Value}
    (answered : call.stage = .answered value) : Since load s call.key call.mark value := by
  have fresh : Fresh load s := reached.invariant (Fresh load) (fresh_initial table)
    fun holds timely taken => holds.step timely taken
  have recent := fresh.recent process call calls
  rwa [Call.Recent, answered] at recent

/-! ### Calls that start after a clear -/

/-- What one step does to the data: a commit adds to it, everything else leaves it. -/
theorem step_tables {action : Action Process Key Table} (taken : step load s action = some next) :
    (next.commits = s.commits ∧ next.tables = s.tables) ∨
      ∃ table owes, action = .commit table owes ∧ next.commits = s.commits + 1 ∧
        next.tables = Function.update s.tables (s.commits + 1) table := by
  cases action with
  | glance process =>
    cases taken
    exact .inl ⟨rfl, rfl⟩
  | start process key =>
    simp only [step] at taken
    split at taken
    · cases taken
    · cases taken
      exact .inl ⟨rfl, rfl⟩
  | advance process =>
    obtain ⟨-, -, -, -, -, commits, tables⟩ := advance_calls taken
    exact .inl ⟨commits, tables⟩
  | commit table owes =>
    cases taken
    exact .inr ⟨table, owes, rfl, rfl, rfl⟩
  | clear key commit =>
    simp only [step] at taken
    split at taken
    · cases taken
      exact .inl ⟨rfl, rfl⟩
    · cases taken
  | expire key =>
    cases taken
    exact .inl ⟨rfl, rfl⟩

theorem step_extends {action : Action Process Key Table} (taken : step load s action = some next) :
    Extends s next := by
  obtain ⟨commits, tables⟩ | ⟨table, -, -, commits, tables⟩ := step_tables taken
  · exact .of_eq commits tables
  · refine ⟨by omega, fun commit bounded => ?_⟩
    rw [tables, Function.update_of_ne (by omega)]

/-- What a commit left stays on record. -/
theorem Extends.of_reaches {ok : State Process Key Value Table → Action Process Key Table → Prop}
    (reached : Reaches (step load) ok s next) : Extends s next := by
  refine reached.invariant (Extends s) ⟨le_rfl, fun _ _ => rfl⟩ ?_
  intro here there action so_far _ taken
  have one := step_extends taken
  refine ⟨so_far.commits_le.trans one.commits_le, fun commit bounded => ?_⟩
  rw [one.tables_eq commit (bounded.trans so_far.commits_le), so_far.tables_eq commit bounded]

/-- What one step does to the clears and to a process' call: what is cleared stays cleared, and a call
that was not there has just started. -/
theorem step_calls {action : Action Process Key Table} (taken : step load s action = some next)
    (process : Process) :
    (∀ key, s.cleared key ≤ next.cleared key) ∧
      ∀ call, next.calls process = some call →
        (∃ earlier, s.calls process = some earlier ∧ earlier.key = call.key ∧
          earlier.mark = call.mark) ∨
        (action = .start process call.key ∧ call.mark = s.cleared call.key) := by
  cases action with
  | glance other =>
    cases taken
    exact ⟨fun _ => le_rfl, fun call calls => .inl ⟨call, calls, rfl, rfl⟩⟩
  | start other key =>
    simp only [step] at taken
    split at taken
    · cases taken
    · cases taken
      refine ⟨fun _ => le_rfl, fun call calls => ?_⟩
      by_cases same : process = other
      · subst same
        obtain rfl : ⟨key, s.cleared key, .asking⟩ = call := by simpa using calls
        exact .inr ⟨rfl, rfl⟩
      · simp only [Function.update_of_ne same] at calls
        exact .inl ⟨call, calls, rfl, rfl⟩
  | advance other =>
    obtain ⟨call, stage, calls, cleared, moved, -⟩ := advance_calls taken
    refine ⟨fun key => by rw [cleared], fun found calls' => ?_⟩
    rw [moved] at calls'
    by_cases same : process = other
    · subst same
      obtain rfl : { call with stage := stage } = found := by simpa using calls'
      exact .inl ⟨call, calls, rfl, rfl⟩
    · rw [Function.update_of_ne same] at calls'
      exact .inl ⟨found, calls', rfl, rfl⟩
  | commit table owes =>
    cases taken
    exact ⟨fun _ => le_rfl, fun call calls => .inl ⟨call, calls, rfl, rfl⟩⟩
  | clear key commit =>
    simp only [step] at taken
    split at taken
    · cases taken
      refine ⟨fun other => ?_, fun call calls => .inl ⟨call, calls, rfl, rfl⟩⟩
      by_cases same : other = key
      · simp [same]
      · simp [Function.update_of_ne same]
    · cases taken
  | expire key =>
    cases taken
    exact ⟨fun _ => le_rfl, fun call calls => .inl ⟨call, calls, rfl, rfl⟩⟩

/-- **A call that is not there yet when a clear has run is marked with it.** -/
theorem mark_of_started_after {ok : State Process Key Value Table → Action Process Key Table → Prop}
    {process : Process} (absent : s.calls process = none)
    (later : Reaches (step load) ok s next) {call : Call Key Value}
    (calls : next.calls process = some call) : s.cleared call.key ≤ call.mark := by
  have kept : (∀ key, s.cleared key ≤ next.cleared key) ∧
      ∀ call, next.calls process = some call → s.cleared call.key ≤ call.mark := by
    refine later.invariant (fun here => (∀ key, s.cleared key ≤ here.cleared key) ∧
      ∀ call, here.calls process = some call → s.cleared call.key ≤ call.mark)
      ⟨fun _ => le_rfl, fun call calls => ?_⟩ ?_
    · rw [absent] at calls
      cases calls
    · rintro here there action ⟨monotone, marks⟩ - taken
      obtain ⟨grows, calls⟩ := step_calls taken process
      refine ⟨fun key => (monotone key).trans (grows key), fun call there => ?_⟩
      obtain ⟨earlier, before, sameKey, sameMark⟩ | ⟨-, started⟩ := calls call there
      · rw [← sameKey, ← sameMark]
        exact marks earlier before
      · rw [started]
        exact monotone call.key
  exact kept.2 call calls

/-- **A call that starts after the clear of a change answers with that change or a later one**, in a
timely run. -/
theorem answered_after_clear {table : Table} {there : State Process Key Value Table}
    (before : Reaches (step load) (Timely load) (State.initial table) s) {commit : ℕ}
    {process : Process} {call : Call Key Value}
    (clear : step load s (.clear call.key commit) = some next) (absent : next.calls process = none)
    (later : Reaches (step load) (Timely load) next there) (calls : there.calls process = some call)
    {value : Value} (answered : call.stage = .answered value) :
    Since load there call.key commit value := by
  have timely : Timely load s (.clear call.key commit) := trivial
  have reached := (before.next timely clear).trans later
  have cleared : commit ≤ next.cleared call.key := by
    simp only [step] at clear
    split at clear
    · cases clear
      simp
    · cases clear
  exact (answered_since reached calls answered).mono
    (cleared.trans (mark_of_started_after absent later calls))

end Steps

end SuiteCloud.Library.CacheAside
