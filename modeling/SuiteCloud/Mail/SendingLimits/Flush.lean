/-
**The flush loses no counts.**

`flush_usage` runs one at a time and may fail or die at any of its requests, while any number of
`count_recipient` calls count beside it.

### What is proved

* `reportable_before` — a period that has begun and may still be stored later may be stored now.
* `Placed` — counters exist only for periods that have begun, of accounts that exist or were deleted.
* `Safe` — **the handover.** A counter's counts are stored already, or its member is in `touched`, or
  it is in `touched:flushing` and the run under way still has to read or write it (`Pending`).
* `safe_step` — every step keeps it, whatever request the run stands at: each increment adds its
  member again in the same script run, and `delete` comes after the commit.
* `stored_le_of_reaches` — stored counts never decrease.
* `completes_of_idle` — a run that does not fail ends.
* `flush_loses_no_count` — the three together, with what a second run changes: nothing, when the
  first found no set left by a failed run. It finds one exactly where it leaves `touched` for the
  next run (`flush_twice_differs`).
-/

import SuiteCloud.Mail.SendingLimits.Counting

set_option linter.unusedSectionVars false

namespace SuiteCloud.Mail.SendingLimits

open SuiteCloud.Library

variable {Account Cluster Call : Type}
variable [DecidableEq Account] [DecidableEq Cluster] [DecidableEq Call]

/-! ## Periods that may still be stored -/

/-- The period has begun. -/
def Begun (now : ℕ) : Period → Prop
  | .day day => day ≤ dayIndex now
  | .month month => month ≤ monthIndex (dayIndex now)

theorem Begun.later {now later : ℕ} {period : Period} (le : now ≤ later) (begun : Begun now period) :
    Begun later period := by
  cases period with
  | day day => exact le_trans begun (dayIndex_mono le)
  | month month => exact le_trans begun (monthIndex_mono (dayIndex_mono le))

theorem dayIndex_yesterday (now : ℕ) : dayIndex (now - 86400) = dayIndex now - 1 := by
  unfold dayIndex
  omega

theorem mem_reportablePeriods {now : ℕ} {period : Period} :
    period ∈ reportablePeriods now ↔
      period = .day (dayIndex now) ∨ period = .month (monthIndex (dayIndex now)) ∨
        period = .day (dayIndex now - 1) ∨ period = .month (monthIndex (dayIndex now - 1)) := by
  unfold reportablePeriods currentPeriods periodsAt
  rw [dayIndex_yesterday]
  simp only [List.cons_append, List.nil_append, List.mem_cons, List.not_mem_nil, or_false]

/-- **A period that has begun, and may be stored later, may be stored now.** -/
theorem reportable_before {now later : ℕ} {period : Period} (le : now ≤ later)
    (begun : Begun now period) (reportable : period ∈ reportablePeriods later) :
    period ∈ reportablePeriods now := by
  have days := dayIndex_mono le
  rw [mem_reportablePeriods] at reportable ⊢
  rcases reportable with rfl | rfl | rfl | rfl
  · have today : dayIndex later = dayIndex now := le_antisymm begun days
    exact Or.inl (by rw [today])
  · have month : monthIndex (dayIndex later) = monthIndex (dayIndex now) :=
      le_antisymm begun (monthIndex_mono days)
    exact Or.inr (Or.inl (by rw [month]))
  · have begun : dayIndex later - 1 ≤ dayIndex now := begun
    have day : dayIndex later - 1 = dayIndex now ∨ dayIndex later - 1 = dayIndex now - 1 := by omega
    rcases day with same | same
    · exact Or.inl (by rw [same])
    · exact Or.inr (Or.inr (Or.inl (by rw [same])))
  · -- Either the clock is in the same day, or yesterday is not before today was.
    rcases Nat.lt_or_ge (dayIndex now) (dayIndex later) with more | same
    · have month : monthIndex (dayIndex later - 1) = monthIndex (dayIndex now) :=
        le_antisymm begun (monthIndex_mono (Nat.le_sub_one_of_lt more))
      exact Or.inr (Or.inl (by rw [month]))
    · have today : dayIndex later = dayIndex now := le_antisymm same days
      exact Or.inr (Or.inr (Or.inr (by rw [today])))

/-! ## Counters belong to accounts and to periods that have begun -/

/-- The account exists, or existed and was deleted. -/
def Known (s : State Account Cluster Call) (account : Account) : Prop :=
  s.mailAccounts account ≠ none ∨ s.deleted account = true

theorem Known.step {s s' : State Account Cluster Call} {action : Action Account Cluster Call}
    {account : Account} (known : Known s account) (steps : Steps s action s') :
    Known s' account := by
  cases steps with
  | advance taken =>
    obtain ⟨recipient, -, ⟨phase, -, rfl⟩ | ⟨limits, day, month, seed, dayCounter, monthCounter, -,
      -, -, rfl⟩⟩ := advance_cases taken
    · exact known
    · exact known
  | flush =>
    unfold Known
    rw [(flushStep_frame s).mailAccounts, (flushStep_frame s).deleted]
    exact known
  | saveAccount other limits =>
    by_cases same : account = other
    · subst same
      exact Or.inl (by simp only [Function.update_self]; exact Option.some_ne_none _)
    · refine known.imp ?_ id
      simp only [Function.update_of_ne same]
      exact id
  | deleteAccount other =>
    by_cases same : account = other
    · subst same
      exact Or.inr (by simp only [Function.update_self])
    · simp only [Known, Function.update_of_ne same]
      exact known
  | tick seconds => exact known
  | start call cluster other fresh => exact known
  | flushFails => exact known
  | clearLimits other => exact known
  | drop key counter present => exact known

/-- **Where counters can be**: limits that name a cluster come from an account, calls are sound, and a
counter is of such an account and of a period that has begun. -/
structure Placed (s : State Account Cluster Call) : Prop where
  calls : CallsSound s
  limits : HoldsLimits (fun account limits => limits.cluster ≠ none → Known s account) s
  begun : ∀ {key counter}, s.redis.counters key = some counter → Begun s.now key.2
  known : ∀ {key counter}, s.redis.counters key = some counter → Known s key.1

theorem counter_before {s s' : State Account Cluster Call} {action : Action Account Cluster Call}
    {key : Key Account} {counter : Counter} (steps : Steps s action s')
    (present : s'.redis.counters key = some counter) :
    s.redis.counters key = some counter ∨
      ∃ call recipient limits day month seed, s.calls call = some recipient ∧
        Asks recipient.phase limits day month seed ∧ s'.now = s.now ∧
        key ∈ s'.redis.touched ∧
        (key = (recipient.account, .day day) ∨ key = (recipient.account, .month month)) := by
  cases steps with
  | advance taken =>
    obtain ⟨recipient, here, ⟨phase, -, rfl⟩ | ⟨limits, day, month, seed, dayCounter, monthCounter,
      asks, foundDay, foundMonth, rfl⟩⟩ := advance_cases taken
    · exact Or.inl present
    · by_cases isMonth : key = (recipient.account, .month month)
      · subst isMonth
        exact Or.inr ⟨_, recipient, limits, day, month, seed, here, asks, rfl,
          List.mem_insert_self, Or.inr rfl⟩
      · by_cases isDay : key = (recipient.account, .day day)
        · subst isDay
          exact Or.inr ⟨_, recipient, limits, day, month, seed, here, asks, rfl,
            List.mem_insert_of_mem List.mem_insert_self, Or.inl rfl⟩
        · simp only [State.counted] at present
          rw [countInto_other _ _ _ _ isDay isMonth, seedCounters_other _ _ isDay isMonth] at present
          exact Or.inl present
  | flush => exact Or.inl (by rw [← present, (flushStep_frame s).counters])
  | drop other dropped there => exact Or.inl (update_none_eq_some present).2
  | tick seconds => exact Or.inl present
  | start call cluster account fresh => exact Or.inl present
  | flushFails => exact Or.inl present
  | saveAccount account limits => exact Or.inl present
  | clearLimits account => exact Or.inl present
  | deleteAccount account => exact Or.inl present

theorem now_le_of_steps {s s' : State Account Cluster Call} {action : Action Account Cluster Call}
    (steps : Steps s action s') : s.now ≤ s'.now := by
  cases steps with
  | advance taken =>
    obtain ⟨recipient, -, ⟨phase, -, rfl⟩ | ⟨limits, day, month, seed, dayCounter, monthCounter, -,
      -, -, rfl⟩⟩ := advance_cases taken
    · exact le_rfl
    · exact le_rfl
  | flush => rw [(flushStep_frame s).now]
  | tick seconds => exact Nat.le_add_right _ _
  | _ => exact le_rfl

theorem placed_step {s s' : State Account Cluster Call} {action : Action Account Cluster Call}
    (placed : Placed s) (steps : Steps s action s') : Placed s' := by
  have later := now_le_of_steps steps
  have limits : HoldsLimits (fun account limits => limits.cluster ≠ none → Known s' account) s := by
    refine ⟨?_, ?_, ?_⟩
    · exact fun account named => (placed.limits.stored account named).step steps
    · exact fun cached named => (placed.limits.cached cached named).step steps
    · exact fun here carries named => (placed.limits.carried here carries named).step steps
  refine ⟨callsSound_step placed.calls steps, limits.step steps ?_, ?_, ?_⟩
  · intro account named
    refine Or.inl fun missing => ?_
    rw [missing] at named
    exact named rfl
  · intro key counter present
    rcases counter_before steps present with before | ⟨call, recipient, limits, day, month, seed,
      here, asks, sameNow, -, counted⟩
    · exact (placed.begun before).later later
    · have admitted := (placed.calls call recipient here).asks asks
      rw [sameNow]
      rcases counted with rfl | rfl
      · exact admitted.begun
      · exact le_trans (le_of_eq admitted.sameDay) (monthIndex_mono admitted.begun)
  · intro key counter present
    rcases counter_before steps present with before | ⟨call, recipient, carried, day, month, seed,
      here, asks, -, -, counted⟩
    · exact (placed.known before).step steps
    · have admitted := (placed.calls call recipient here).asks asks
      have known := limits.carried here asks.limits_eq (by rw [admitted.own]; exact Option.some_ne_none _)
      rcases counted with rfl | rfl
      · exact known
      · exact known

/-! ## The handover from counters to rows -/

/-- The run under way still has to read or to write at least these counts. -/
def Pending (key : Key Account) (counter : Counter) : Flush Account → Prop
  | .idle => True
  | .checkTouched => True
  | .rename => True
  | .readMembers => True
  | .pickPeriods members => key ∈ members
  | .readCounters todo rows => key ∈ todo ∨ ∃ read, (key, read) ∈ rows ∧ counter ≤ read
  | .upsert rows written => (∃ read, (key, read) ∈ rows ∧ counter ≤ read) ∨
      ∃ write ∈ written, write.key = key ∧ counter ≤ write.counter
  | .commit written => ∃ write ∈ written, write.key = key ∧ counter ≤ write.counter
  | .delete => False

/-- **Counts are stored, touched, or on their way.** -/
def Safe (s : State Account Cluster Call) (key : Key Account) (counter : Counter) : Prop :=
  counter ≤ s.stored key ∨ key ∈ s.redis.touched ∨
    (key ∈ s.redis.flushing ∧ Pending key counter s.flush)

/-- A run renames `touched` only over a set that does not exist. -/
def RenamesFree (s : State Account Cluster Call) : Prop :=
  s.flush = .checkTouched ∨ s.flush = .rename → s.redis.flushing = []

theorem renamesFree_flushStep {s : State Account Cluster Call} (free : RenamesFree s) :
    RenamesFree (flushStep s) := by
  intro renames
  unfold flushStep at renames ⊢
  split at renames
  case h_1 here =>
    simp only at renames ⊢
    by_cases none : s.redis.flushing = []
    · exact none
    · rw [if_neg none] at renames
      rcases renames with absurd | absurd <;> cases absurd
  case h_2 here => exact free (Or.inl here)
  case h_7 key todo rows here =>
    split at renames <;> rcases renames with absurd | absurd <;> cases absurd
  case h_8 rows written here =>
    split at renames <;> rcases renames with absurd | absurd <;> cases absurd
  all_goals rcases renames with absurd | absurd <;> cases absurd

theorem pending_flushStep {s : State Account Cluster Call} {key : Key Account} {counter : Counter}
    (free : RenamesFree s) (member : key ∈ s.redis.flushing) (pending : Pending key counter s.flush)
    (present : s.redis.counters key = some counter) (exists' : s.mailAccounts key.1 ≠ none)
    (reportable : key.2 ∈ reportablePeriods s.now) :
    counter ≤ (flushStep s).stored key ∨
      (key ∈ (flushStep s).redis.flushing ∧ Pending key counter (flushStep s).flush) := by
  unfold flushStep
  cases here : s.flush with
  | idle => exact Or.inr ⟨member, by simp only; split <;> trivial⟩
  | checkTouched => exact Or.inr ⟨member, by simp only; split <;> trivial⟩
  | rename =>
    rw [free (Or.inr here)] at member
    cases member
  | readMembers => exact Or.inr ⟨member, member⟩
  | pickPeriods members =>
    rw [here] at pending
    exact Or.inr ⟨member, Or.inl (List.mem_filter.mpr ⟨pending, by simpa using reportable⟩)⟩
  | readCounters todo rows =>
    rw [here] at pending
    cases todo with
    | nil =>
      rcases pending with absurd | read
      · cases absurd
      · exact Or.inr ⟨member, Or.inl read⟩
    | cons first todo =>
      right
      by_cases same : key = first
      · subst same
        simp only [present]
        exact ⟨member, Or.inr ⟨counter, List.mem_append_right _ (List.mem_singleton_self _), le_refl _⟩⟩
      · have still : key ∈ todo ∨ ∃ read, (key, read) ∈ rows ∧ counter ≤ read :=
          pending.imp_left fun among => (List.mem_cons.mp among).resolve_left same
        cases found : s.redis.counters first with
        | none =>
          simp only [found]
          exact ⟨member, still⟩
        | some other =>
          simp only [found]
          refine ⟨member, still.imp_right ?_⟩
          rintro ⟨read, among, enough⟩
          exact ⟨read, List.mem_append_left _ among, enough⟩
  | upsert rows written =>
    rw [here] at pending
    right
    by_cases done : rows = []
    · subst done
      simp only [if_true]
      refine ⟨member, pending.resolve_left ?_⟩
      rintro ⟨read, among, -⟩
      cases among
    · simp only [if_neg done]
      refine ⟨member, ?_⟩
      rcases pending with ⟨read, among, enough⟩ | ⟨write, among, same, enough⟩
      · rw [← List.take_append_drop flushBatch rows] at among
        rcases List.mem_append.mp among with batched | left
        · obtain ⟨limits, found⟩ := Option.ne_none_iff_exists'.mp exists'
          refine Or.inr ⟨⟨key, read, limitOf limits key.2, s.now⟩, ?_, rfl, enough⟩
          exact List.mem_append_right _ (mem_upsertRows.mpr ⟨key, read, limits, batched, found, rfl⟩)
        · exact Or.inl ⟨read, left, enough⟩
      · exact Or.inr ⟨write, List.mem_append_left _ among, same, enough⟩
  | commit written =>
    rw [here] at pending
    obtain ⟨write, among, same, enough⟩ := pending
    refine Or.inl (le_trans enough ?_)
    have stored := upsertAll_mem s.usage among
    rw [same] at stored
    exact stored
  | delete =>
    rw [here] at pending
    exact pending.elim

theorem stored_flushStep (s : State Account Cluster Call) (key : Key Account) :
    s.stored key ≤ (flushStep s).stored key := by
  rcases flushStep_usage s with same | ⟨written, -, stored⟩
  · rw [State.stored, State.stored, same]
  · rw [State.stored, State.stored, stored]
    exact upsertAll_le written s.usage key

theorem touched_flushStep {s : State Account Cluster Call} {key : Key Account} {counter : Counter}
    (member : key ∈ s.redis.touched) :
    key ∈ (flushStep s).redis.touched ∨
      (key ∈ (flushStep s).redis.flushing ∧ Pending key counter (flushStep s).flush) := by
  unfold flushStep
  split
  case h_3 => exact Or.inr ⟨member, trivial⟩
  case h_7 first todo rows here => cases s.redis.counters first <;> exact Or.inl member
  case h_8 rows written here => split <;> exact Or.inl member
  all_goals exact Or.inl member

/-- **The flush loses no counts**, as an invariant. -/
structure Covered (s : State Account Cluster Call) : Prop where
  placed : Placed s
  free : RenamesFree s
  safe : ∀ {key counter}, s.deleted key.1 = false → key.2 ∈ reportablePeriods s.now →
    s.redis.counters key = some counter → Safe s key counter

theorem safe_flushStep {s : State Account Cluster Call} (covered : Covered s) {key : Key Account}
    {counter : Counter} (alive : s.deleted key.1 = false)
    (reportable : key.2 ∈ reportablePeriods s.now) (present : s.redis.counters key = some counter) :
    Safe (flushStep s) key counter := by
  have exists' : s.mailAccounts key.1 ≠ none := by
    refine (covered.placed.known present).resolve_right ?_
    rw [alive]
    exact Bool.false_ne_true
  rcases covered.safe alive reportable present with stored | touched | ⟨flushing, pending⟩
  · exact Or.inl (le_trans stored (stored_flushStep s key))
  · exact Or.inr (touched_flushStep touched)
  · exact (pending_flushStep covered.free flushing pending present exists' reportable).imp_right
      Or.inr

theorem covered_step {s s' : State Account Cluster Call} {action : Action Account Cluster Call}
    (covered : Covered s) (steps : Steps s action s') : Covered s' := by
  have placed := placed_step covered.placed steps
  cases steps with
  | advance taken =>
    obtain ⟨recipient, here, ⟨phase, -, rfl⟩ | ⟨limits, day, month, seed, dayCounter, monthCounter,
      asks, foundDay, foundMonth, rfl⟩⟩ := advance_cases taken
    · exact ⟨placed, covered.free, covered.safe⟩
    · refine ⟨placed, covered.free, ?_⟩
      intro key counter alive reportable present
      rcases counter_before (.advance taken) present with before | ⟨_, _, _, _, _, _, -, -, -,
        touched, -⟩
      · refine (covered.safe alive reportable before).imp_right (Or.imp_left ?_)
        exact fun touched => List.mem_insert_of_mem (List.mem_insert_of_mem touched)
      · exact Or.inr (Or.inl touched)
  | flush =>
    have frame := flushStep_frame s
    refine ⟨placed, renamesFree_flushStep covered.free, ?_⟩
    intro key counter alive reportable present
    rw [frame.deleted] at alive
    rw [frame.now] at reportable
    rw [frame.counters] at present
    exact safe_flushStep covered alive reportable present
  | tick seconds =>
    refine ⟨placed, covered.free, ?_⟩
    intro key counter alive reportable present
    exact covered.safe alive (reportable_before (Nat.le_add_right _ _)
      (covered.placed.begun present) reportable) present
  | flushFails =>
    refine ⟨placed, ?_, ?_⟩
    · rintro (absurd | absurd) <;> cases absurd
    · intro key counter alive reportable present
      refine (covered.safe alive reportable present).imp_right (Or.imp_right ?_)
      rintro ⟨member, -⟩
      exact ⟨member, trivial⟩
  | deleteAccount account =>
    refine ⟨placed, covered.free, ?_⟩
    intro key counter alive reportable present
    have other : key.1 ≠ account := by
      intro same
      simp only [same, Function.update_self] at alive
      cases alive
    simp only [Function.update_of_ne other] at alive
    have safe := covered.safe alive reportable present
    simp only [Safe, State.stored, storedIn, if_neg other] at safe ⊢
    exact safe
  | drop key counter there =>
    refine ⟨placed, covered.free, ?_⟩
    intro other found alive reportable present
    exact covered.safe alive reportable (update_none_eq_some present).2
  | start call cluster account fresh => exact ⟨placed, covered.free, covered.safe⟩
  | saveAccount account limits => exact ⟨placed, covered.free, covered.safe⟩
  | clearLimits account => exact ⟨placed, covered.free, covered.safe⟩

theorem covered_reached {now : ℕ} {mailAccounts : Account → Option (Limits Cluster)}
    {s : State Account Cluster Call}
    (reached : Reaches step anyStep (State.initial now mailAccounts) s) : Covered s := by
  refine reached.invariant Covered ?_ ?_
  · refine ⟨⟨?_, HoldsLimits.initial ?_, ?_, ?_⟩, ?_, ?_⟩
    · intro call recipient here
      cases here
    · intro account named
      refine Or.inl fun missing => named ?_
      simp only [State.initial] at missing
      rw [missing]
      rfl
    · intro key counter present
      cases present
    · intro key counter present
      cases present
    · exact fun _ => rfl
    · intro key counter _ _ present
      cases present
  · intro here there action covered _ taken
    exact covered_step covered (steps_of_step taken)

/-! ## Stored counts never decrease -/

theorem stored_le_step {s s' : State Account Cluster Call} {action : Action Account Cluster Call}
    {key : Key Account} (steps : Steps s action s') (alive : s'.deleted key.1 = false) :
    s.stored key ≤ s'.stored key ∧ s.deleted key.1 = false := by
  cases steps with
  | advance taken =>
    obtain ⟨recipient, -, ⟨phase, -, rfl⟩ | ⟨limits, day, month, seed, dayCounter, monthCounter, -,
      -, -, rfl⟩⟩ := advance_cases taken
    · exact ⟨le_refl _, alive⟩
    · exact ⟨le_refl _, alive⟩
  | flush =>
    rw [(flushStep_frame s).deleted] at alive
    exact ⟨stored_flushStep s key, alive⟩
  | deleteAccount account =>
    have other : key.1 ≠ account := by
      intro same
      simp only [same, Function.update_self] at alive
      cases alive
    simp only [Function.update_of_ne other] at alive
    refine ⟨le_of_eq ?_, alive⟩
    simp only [State.stored, storedIn, if_neg other]
  | tick seconds => exact ⟨le_refl _, alive⟩
  | start call cluster account fresh => exact ⟨le_refl _, alive⟩
  | flushFails => exact ⟨le_refl _, alive⟩
  | saveAccount account limits => exact ⟨le_refl _, alive⟩
  | clearLimits account => exact ⟨le_refl _, alive⟩
  | drop dropped counter present => exact ⟨le_refl _, alive⟩

/-- **Stored counts never decrease** along a run, of accounts not deleted. -/
theorem stored_le_of_reaches {s s' : State Account Cluster Call} {key : Key Account}
    (reached : Reaches step anyStep s s') (alive : s'.deleted key.1 = false) :
    s.stored key ≤ s'.stored key := by
  induction reached with
  | start => exact le_refl _
  | next _ _ taken ih =>
    obtain ⟨le, aliveBefore⟩ := stored_le_step (steps_of_step taken) alive
    exact le_trans (ih aliveBefore) le

/-! ## A run to completion -/

/-- What goes on beside a run that does not fail, where nothing is counted and no account deleted. -/
def uncounted (s : State Account Cluster Call) : Action Account Cluster Call → Prop
  | .advance call => ∀ s', advance s call = some s' → s'.log = s.log
  | .flushFails => False
  | .deleteAccount _ => False
  | _ => True

/-- **`flush_usage` runs to completion**, from its first request to its return. -/
def Completes (s s' : State Account Cluster Call) : Prop :=
  s.flush = .idle ∧ s'.flush = .idle ∧
    Reaches step (fun s action => s.flush ≠ .idle ∧ uncounted s action) (flushStep s) s'

theorem uncounted_frame {s s' : State Account Cluster Call} {action : Action Account Cluster Call}
    (steps : Steps s action s') (quiet : uncounted s action) :
    s' = flushStep s ∨ (s'.flush = s.flush ∧ s'.redis.touched = s.redis.touched ∧
      s'.redis.flushing = s.redis.flushing ∧ s'.usage = s.usage) := by
  cases steps with
  | advance taken =>
    have same := quiet s' taken
    obtain ⟨recipient, -, ⟨phase, -, rfl⟩ | ⟨limits, day, month, seed, dayCounter, monthCounter, -,
      -, -, rfl⟩⟩ := advance_cases taken
    · exact Or.inr ⟨rfl, rfl, rfl, rfl⟩
    · exact absurd same (List.cons_ne_self _ _)
  | flush => exact Or.inl rfl
  | flushFails => exact quiet.elim
  | deleteAccount account => exact quiet.elim
  | tick seconds => exact Or.inr ⟨rfl, rfl, rfl, rfl⟩
  | start call cluster account fresh => exact Or.inr ⟨rfl, rfl, rfl, rfl⟩
  | saveAccount account limits => exact Or.inr ⟨rfl, rfl, rfl, rfl⟩
  | clearLimits account => exact Or.inr ⟨rfl, rfl, rfl, rfl⟩
  | drop key counter present => exact Or.inr ⟨rfl, rfl, rfl, rfl⟩

/-- Where a run stands that leaves no set of its own; if it renamed `touched` (`renames`), that stays
empty too. -/
def Empties (renames : Prop) (s : State Account Cluster Call) : Prop :=
  match s.flush with
  | .idle => s.redis.flushing = [] ∧ (renames → s.redis.touched = [])
  | .checkTouched => s.redis.flushing = []
  | .rename => True
  | _ => renames → s.redis.touched = []

theorem empties_flushStep {renames : Prop} {s : State Account Cluster Call}
    (empties : Empties renames s) (running : s.flush ≠ .idle) : Empties renames (flushStep s) := by
  unfold flushStep
  cases here : s.flush with
  | idle => exact absurd here running
  | checkTouched =>
    simp only [Empties, here] at empties
    by_cases none : s.redis.touched = []
    · simp only [Empties, if_pos none]
      exact ⟨empties, fun _ => none⟩
    · simp only [Empties, if_neg none]
  | rename => exact fun _ => rfl
  | readMembers => simp only [Empties, here] at empties; exact empties
  | pickPeriods members => simp only [Empties, here] at empties; exact empties
  | readCounters todo rows =>
    simp only [Empties, here] at empties
    cases todo with
    | nil => exact empties
    | cons first todo =>
      cases found : s.redis.counters first with
      | none => simp only [found]; exact empties
      | some counter => simp only [found]; exact empties
  | upsert rows written =>
    simp only [Empties, here] at empties
    simp only
    split <;> exact empties
  | commit written => simp only [Empties, here] at empties; exact empties
  | delete => simp only [Empties, here] at empties; exact ⟨rfl, empties⟩

theorem empty_of_completes {s s' : State Account Cluster Call} (completes : Completes s s') :
    s'.redis.flushing = [] ∧ (s.redis.flushing = [] → s'.redis.touched = []) := by
  obtain ⟨idle, idle', reached⟩ := completes
  have empties : Empties (s.redis.flushing = []) s' := by
    refine reached.invariant (Empties (s.redis.flushing = [])) ?_ ?_
    · by_cases clean : s.redis.flushing = []
      · simp only [flushStep, idle, if_pos clean, Empties]
        exact clean
      · simp only [flushStep, idle, if_neg clean, Empties]
        exact fun absurd => (clean absurd).elim
    · intro here there action empties allowed taken
      rcases uncounted_frame (steps_of_step taken) allowed.2 with rfl | ⟨flush, touched, flushing, -⟩
      · exact empties_flushStep empties allowed.1
      · unfold Empties
        rw [flush, touched, flushing]
        exact empties
  simp only [Empties, idle'] at empties
  exact empties

theorem usage_of_completes_empty {s s' : State Account Cluster Call} (completes : Completes s s')
    (flushing : s.redis.flushing = []) (touched : s.redis.touched = []) : s'.usage = s.usage := by
  obtain ⟨idle, -, reached⟩ := completes
  have kept : (s'.flush = .idle ∨ s'.flush = .checkTouched) ∧ s'.redis.touched = [] ∧
      s'.usage = s.usage := by
    refine reached.invariant (fun there => (there.flush = .idle ∨ there.flush = .checkTouched) ∧
      there.redis.touched = [] ∧ there.usage = s.usage) ?_ ?_
    · simp only [flushStep, idle, if_pos flushing]
      exact ⟨Or.inr trivial, touched, trivial⟩
    · rintro here there action ⟨phase, none, same⟩ allowed taken
      rcases uncounted_frame (steps_of_step taken) allowed.2 with rfl | ⟨flush, touches, -, usage⟩
      · have checks := phase.resolve_left allowed.1
        simp only [flushStep, checks, if_pos none]
        exact ⟨Or.inl trivial, none, same⟩
      · rw [flush, touches, usage]
        exact ⟨phase, none, same⟩
  exact kept.2.2

/-! ## A run ends -/

/-- No run is going on. -/
def Flush.isIdle : Flush Account → Bool
  | .idle => true
  | _ => false

theorem Flush.isIdle_iff {flush : Flush Account} : flush.isIdle = true ↔ flush = .idle := by
  cases flush <;> simp [Flush.isIdle]

/-- The requests of a run, until it ends or the fuel does. -/
def flushRun : ℕ → State Account Cluster Call → State Account Cluster Call
  | 0, s => s
  | fuel + 1, s => if s.flush.isIdle then s else flushRun fuel (flushStep s)

/-- The requests a run has left, at most. -/
def requestsLeft (s : State Account Cluster Call) : ℕ :=
  match s.flush with
  | .idle => 0
  | .checkTouched => 8 + 2 * s.redis.touched.length
  | .rename => 7 + 2 * s.redis.touched.length
  | .readMembers => 6 + 2 * s.redis.flushing.length
  | .pickPeriods members => 5 + 2 * members.length
  | .readCounters todo rows => 4 + 2 * todo.length + rows.length
  | .upsert rows _ => 3 + rows.length
  | .commit _ => 2
  | .delete => 1

theorem requestsLeft_flushStep {s : State Account Cluster Call} (running : s.flush ≠ .idle) :
    requestsLeft (flushStep s) < requestsLeft s := by
  unfold flushStep
  cases here : s.flush with
  | idle => exact absurd here running
  | checkTouched =>
    simp only [requestsLeft, here]
    split
    case h_1 => omega
    case h_3 => omega
    all_goals rename_i kind; split at kind <;> cases kind
  | rename => simp only [requestsLeft, here]; omega
  | readMembers => simp only [requestsLeft, here]; omega
  | pickPeriods members =>
    have fewer := List.length_filter_le (fun key : Key Account => decide (key.2 ∈ reportablePeriods s.now))
      members
    simp only [requestsLeft, here, List.length_nil]
    omega
  | readCounters todo rows =>
    cases todo with
    | nil => simp only [requestsLeft, here, List.length_nil]; omega
    | cons first todo =>
      cases found : s.redis.counters first with
      | none => simp only [found, requestsLeft, here, List.length_cons]; omega
      | some counter =>
        simp only [found, requestsLeft, here, List.length_cons, List.length_append, List.length_nil]
        omega
  | upsert rows written =>
    by_cases done : rows = []
    · simp only [if_pos done, requestsLeft, here]
      omega
    · have some : 0 < rows.length := List.length_pos_iff.mpr done
      simp only [if_neg done, requestsLeft, here, List.length_drop, flushBatch]
      omega
  | commit written => simp only [requestsLeft, here]; omega
  | delete => simp only [requestsLeft, here]; omega

theorem flushRun_idle : ∀ (fuel : ℕ) (s : State Account Cluster Call), requestsLeft s ≤ fuel →
    (flushRun fuel s).flush = .idle
  | 0, s, enough => by
      by_cases idle : s.flush = .idle
      · exact idle
      · have fewer := requestsLeft_flushStep idle
        omega
  | fuel + 1, s, enough => by
      unfold flushRun
      by_cases idle : s.flush = .idle
      · rw [if_pos (Flush.isIdle_iff.mpr idle), idle]
      · have fewer := requestsLeft_flushStep idle
        rw [if_neg (mt Flush.isIdle_iff.mp idle)]
        exact flushRun_idle fuel (flushStep s) (by omega)

theorem flushRun_reaches : ∀ (fuel : ℕ) (s : State Account Cluster Call),
    Reaches step (fun s action => s.flush ≠ .idle ∧ uncounted s action) s (flushRun fuel s)
  | 0, s => .start
  | fuel + 1, s => by
      unfold flushRun
      by_cases idle : s.flush = .idle
      · rw [if_pos (Flush.isIdle_iff.mpr idle)]
        exact .start
      · rw [if_neg (mt Flush.isIdle_iff.mp idle)]
        exact Reaches.trans (.single .flush ⟨idle, trivial⟩ rfl) (flushRun_reaches fuel (flushStep s))

theorem completes_flushRun {s : State Account Cluster Call} {fuel : ℕ} (idle : s.flush = .idle)
    (ends : (flushRun fuel (flushStep s)).flush = .idle) :
    Completes s (flushRun fuel (flushStep s)) :=
  ⟨idle, ends, flushRun_reaches fuel (flushStep s)⟩

theorem completes_of_idle {s : State Account Cluster Call} (idle : s.flush = .idle) :
    ∃ s', Completes s s' :=
  ⟨_, completes_flushRun idle (flushRun_idle _ _ le_rfl)⟩

/-! ## The flush loses no count -/

/-- **The flush loses no count.** In every state, each counter of a period that may still be stored,
of an account not deleted, whose counts exceed the committed row has its member in `touched` or in
`touched:flushing`; stored counts never decrease; a run can be taken to completion, and a second one
then leaves the rows of the first, when that found no set left by a failed run, and of a third one
after any two. -/
theorem flush_loses_no_count (now : ℕ) (mailAccounts : Account → Option (Limits Cluster))
    (s : State Account Cluster Call)
    (reached : Reaches step anyStep (State.initial now mailAccounts) s) :
    (∀ key counter, s.deleted key.1 = false → key.2 ∈ reportablePeriods s.now →
      s.redis.counters key = some counter → ¬ counter ≤ s.stored key →
      key ∈ s.redis.touched ∨ key ∈ s.redis.flushing) ∧
    (∀ s' key, Reaches step anyStep s s' → s'.deleted key.1 = false →
      s.stored key ≤ s'.stored key) ∧
    (s.flush = .idle → ∃ s', Completes s s') ∧
    (∀ once twice, s.redis.flushing = [] → Completes s once → Completes once twice →
      twice.usage = once.usage) ∧
    ∀ once twice thrice, Completes s once → Completes once twice → Completes twice thrice →
      thrice.usage = twice.usage := by
  refine ⟨?_, ?_, completes_of_idle, ?_, ?_⟩
  · intro key counter alive reportable present exceeds
    have safe := (covered_reached reached).safe alive reportable present
    exact (safe.resolve_left exceeds).imp_right And.left
  · intro s' key later alive
    exact stored_le_of_reaches later alive
  · intro once twice clean first second
    obtain ⟨flushing, touched⟩ := empty_of_completes first
    exact usage_of_completes_empty second flushing (touched clean)
  · intro once twice thrice first second third
    obtain ⟨clean, -⟩ := empty_of_completes first
    obtain ⟨flushing, touched⟩ := empty_of_completes second
    exact usage_of_completes_empty third flushing (touched clean)

/-- A recipient of account 3 is counted; the flush run renames the set and dies; a recipient of
account 4 is counted. -/
def failedRename : List (Action ℕ ℕ ℕ) :=
  [.start 0 7 3, .advance 0, .advance 0, .advance 0, .advance 0, .advance 0, .advance 0, .advance 0,
    .flush, .flush, .flush, .flushFails,
    .start 1 7 4, .advance 1, .advance 1, .advance 1, .advance 1, .advance 1, .advance 1, .advance 1]

/-- Both sets hold members now, and the two counters of account 4 are in `touched`, as claimed. -/
theorem flush_loses_no_count_failedRename :
    ∃ s : State ℕ ℕ ℕ,
      run step (State.initial 0 fun _ => some ⟨some 7, 9, 9⟩) failedRename = some s ∧
      s.redis.counters (4, .day 0) = some ⟨1, 0⟩ ∧
      ((4, .day 0) ∈ s.redis.touched ∨ (4, .day 0) ∈ s.redis.flushing) := by
  have seen : (run step (State.initial 0 fun _ => some ⟨some 7, 9, 9⟩) failedRename).map
      (fun s => (s.redis.counters (4, .day 0), s.deleted 4, s.now, s.usage (4, .day 0)))
      = some (some ⟨1, 0⟩, false, 0, none) := by decide
  obtain ⟨s, ends, seen⟩ := Option.map_eq_some_iff.mp seen
  simp only [Prod.mk.injEq] at seen
  obtain ⟨counter, alive, now, stored⟩ := seen
  have reached : Reaches step anyStep (State.initial 0 fun _ => some ⟨some 7, 9, 9⟩) s :=
    reaches_of_run (runMeets_of_forall fun _ _ _ => trivial) ends
  refine ⟨s, ends, counter, ?_⟩
  refine (flush_loses_no_count 0 _ s reached).1 (4, .day 0) ⟨1, 0⟩ alive ?_ counter ?_
  · rw [now]
    decide
  · rw [State.stored, storedIn, stored]
    exact fun le => absurd le.1 (by decide)

/-- **A second run may write what the first did not**: the set a failed run left is flushed first, and
what was counted since is left to the next run. -/
theorem flush_twice_differs :
    ¬ ∀ s once twice : State ℕ ℕ ℕ,
      Reaches step noLoss (State.initial 0 fun _ => some ⟨some 7, 9, 9⟩) s →
      Completes s once → Completes once twice → twice.usage = once.usage := by
  intro same
  have seen : (run step (State.initial 0 fun _ => some ⟨some 7, 9, 9⟩) failedRename).map
      (fun s =>
        let once := flushRun 20 (flushStep s)
        let twice := flushRun 20 (flushStep once)
        ((s.flush.isIdle, once.flush.isIdle, twice.flush.isIdle),
          once.usage (4, .day 0), (twice.usage (4, .day 0)).isSome))
      = some ((true, true, true), none, true) := by decide
  obtain ⟨s, ends, seen⟩ := Option.map_eq_some_iff.mp seen
  simp only [Prod.mk.injEq] at seen
  obtain ⟨⟨idle, idleOnce, idleTwice⟩, missing, stored⟩ := seen
  have reached : Reaches step noLoss (State.initial 0 fun _ => some ⟨some 7, 9, 9⟩) s :=
    reaches_of_run (runMeets_of_forall (by simp [failedRename, noLoss])) ends
  have equal := same s _ _ reached (completes_flushRun (Flush.isIdle_iff.mp idle) (Flush.isIdle_iff.mp idleOnce))
    (completes_flushRun (Flush.isIdle_iff.mp idleOnce) (Flush.isIdle_iff.mp idleTwice))
  rw [equal, missing] at stored
  cases stored

end SuiteCloud.Mail.SendingLimits
