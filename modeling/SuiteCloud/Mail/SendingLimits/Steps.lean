/-
**Sending limits: what a step can do, said once.**

The invariants of `Counting` and `Flush` never unfold `step`; they go through the inversions here.

* `runScript_cases` — a run of the script either asks for a seed and changes nothing, or finds both
  counters (after seeding) and counts in them.
* `Moves` and `advance_cases` — a call's request either moves it on without counting, in one of eight
  ways, or counts it.
* `flushStep_frame` and `flushStep_usage` — a flush request touches no counter, no call and no record
  of the past, and writes rows only by its commit.
* `mem_upsertRows`, `upsertAll_le`, `upsertAll_mem` — what a batch keeps, and what a commit stores.
* `Steps` and `steps_of_step` — the nine actions with what each needs and leaves.
* `counter_grows` — a counter only grows, while Redis does not drop it.
-/

import SuiteCloud.Mail.SendingLimits.Model

set_option linter.unusedSectionVars false

namespace SuiteCloud.Mail.SendingLimits

open SuiteCloud.Library

variable {Account Cluster Call : Type}
variable [DecidableEq Account] [DecidableEq Cluster] [DecidableEq Call]

/-! ### The script -/

theorem day_ne_month (account : Account) (day month : ℕ) :
    ((account, .day day) : Key Account) ≠ (account, .month month) := by
  intro same
  cases same

/-- The counters of a counted recipient. -/
def countInto (counters : Key Account → Option Counter) (account : Account) (day month : ℕ)
    (dayCounter monthCounter : Counter) (verdict : Verdict) : Key Account → Option Counter :=
  Function.update
    (Function.update counters (account, .day day) (some (dayCounter.count verdict)))
    (account, .month month) (some (monthCounter.count verdict))

theorem countInto_day (counters : Key Account → Option Counter) (account : Account) (day month : ℕ)
    (dayCounter monthCounter : Counter) (verdict : Verdict) :
    countInto counters account day month dayCounter monthCounter verdict (account, .day day)
      = some (dayCounter.count verdict) := by
  rw [countInto, Function.update_of_ne (day_ne_month account day month), Function.update_self]

theorem countInto_month (counters : Key Account → Option Counter) (account : Account)
    (day month : ℕ) (dayCounter monthCounter : Counter) (verdict : Verdict) :
    countInto counters account day month dayCounter monthCounter verdict (account, .month month)
      = some (monthCounter.count verdict) := by
  rw [countInto, Function.update_self]

theorem countInto_other (counters : Key Account → Option Counter) {account : Account}
    {day month : ℕ} (dayCounter monthCounter : Counter) (verdict : Verdict) {key : Key Account}
    (notDay : key ≠ (account, .day day)) (notMonth : key ≠ (account, .month month)) :
    countInto counters account day month dayCounter monthCounter verdict key = counters key := by
  rw [countInto, Function.update_of_ne notMonth, Function.update_of_ne notDay]

theorem seedCounters_other (counters : Key Account → Option Counter) {account : Account}
    {day month : ℕ} (seed : Option Seed) {key : Key Account}
    (notDay : key ≠ (account, .day day)) (notMonth : key ≠ (account, .month month)) :
    seedCounters counters account day month seed key = counters key := by
  cases seed with
  | none => rfl
  | some seed =>
    rw [seedCounters, hsetnx, Function.update_of_ne notMonth, hsetnx, Function.update_of_ne notDay]

theorem seedCounters_day {counters : Key Account → Option Counter} {account : Account}
    {day month : ℕ} {seed : Option Seed} {counter : Counter}
    (found : seedCounters counters account day month seed (account, .day day) = some counter) :
    counters (account, .day day) = some counter ∨
      (counters (account, .day day) = none ∧ ∃ given, seed = some given ∧ counter = given.day) := by
  cases seed with
  | none => exact Or.inl found
  | some given =>
    rw [seedCounters, hsetnx, Function.update_of_ne (day_ne_month account day month), hsetnx,
      Function.update_self] at found
    cases here : counters (account, .day day) with
    | some old => rw [here] at found; exact Or.inl found
    | none => rw [here] at found; exact Or.inr ⟨rfl, given, rfl, (Option.some.inj found).symm⟩

theorem seedCounters_month {counters : Key Account → Option Counter} {account : Account}
    {day month : ℕ} {seed : Option Seed} {counter : Counter}
    (found : seedCounters counters account day month seed (account, .month month) = some counter) :
    counters (account, .month month) = some counter ∨
      (counters (account, .month month) = none ∧
        ∃ given, seed = some given ∧ counter = given.month) := by
  cases seed with
  | none => exact Or.inl found
  | some given =>
    rw [seedCounters, hsetnx, Function.update_self, hsetnx,
      Function.update_of_ne (day_ne_month account day month).symm] at found
    cases here : counters (account, .month month) with
    | some old => rw [here] at found; exact Or.inl found
    | none => rw [here] at found; exact Or.inr ⟨rfl, given, rfl, (Option.some.inj found).symm⟩

theorem seedCounters_seeded (counters : Key Account → Option Counter) (account : Account)
    (day month : ℕ) (seed : Seed) :
    (∃ counter, seedCounters counters account day month (some seed) (account, .day day)
        = some counter) ∧
      ∃ counter, seedCounters counters account day month (some seed) (account, .month month)
        = some counter := by
  constructor
  · refine ⟨(counters (account, .day day)).getD seed.day, ?_⟩
    rw [seedCounters, hsetnx, Function.update_of_ne (day_ne_month account day month), hsetnx,
      Function.update_self]
  · refine ⟨(counters (account, .month month)).getD seed.month, ?_⟩
    rw [seedCounters, hsetnx, Function.update_self, hsetnx,
      Function.update_of_ne (day_ne_month account day month).symm]

/-! ### A call's request -/

/-- The state after a call counted its recipient in the two counters it found. -/
def State.counted (s : State Account Cluster Call) (call : Call)
    (recipient : Recipient Account Cluster) (limits : Limits Cluster) (day month : ℕ)
    (seed : Option Seed) (dayCounter monthCounter : Counter) : State Account Cluster Call :=
  let verdict := verdictOf limits dayCounter monthCounter
  { s.setPhase call recipient (.counted limits day month verdict) with
    redis :=
      { s.redis with
        counters := countInto (seedCounters s.redis.counters recipient.account day month seed)
          recipient.account day month dayCounter monthCounter verdict
        touched := (s.redis.touched.insert (recipient.account, .day day)).insert
          (recipient.account, .month month) }
    log := ⟨call, recipient.account, day, month, limits, verdict⟩ :: s.log }

/-- **A run of the script**: both counters were found and the recipient counted in them, or one was
missing, no seed was given, and the call goes for one. -/
theorem runScript_cases (s : State Account Cluster Call) (call : Call)
    (recipient : Recipient Account Cluster) (limits : Limits Cluster) (day month : ℕ)
    (seed : Option Seed) :
    (seed = none ∧ s.runScript call recipient limits day month seed
        = s.setPhase call recipient (.readSeed limits day month)) ∨
      ∃ dayCounter monthCounter,
        seedCounters s.redis.counters recipient.account day month seed
            (recipient.account, .day day) = some dayCounter ∧
        seedCounters s.redis.counters recipient.account day month seed
            (recipient.account, .month month) = some monthCounter ∧
        s.runScript call recipient limits day month seed
          = s.counted call recipient limits day month seed dayCounter monthCounter := by
  unfold State.runScript checkScript
  cases foundDay : seedCounters s.redis.counters recipient.account day month seed
      (recipient.account, .day day) with
  | none =>
    refine Or.inl ⟨?_, by simp only [foundDay]⟩
    cases seed with
    | none => rfl
    | some given =>
      obtain ⟨⟨counter, found⟩, -⟩ :=
        seedCounters_seeded s.redis.counters recipient.account day month given
      rw [found] at foundDay
      cases foundDay
  | some dayCounter =>
    cases foundMonth : seedCounters s.redis.counters recipient.account day month seed
        (recipient.account, .month month) with
    | none =>
      refine Or.inl ⟨?_, by simp only [foundDay, foundMonth]⟩
      cases seed with
      | none => rfl
      | some given =>
        obtain ⟨-, counter, found⟩ :=
          seedCounters_seeded s.redis.counters recipient.account day month given
        rw [found] at foundMonth
        cases foundMonth
    | some monthCounter =>
      refine Or.inr ⟨dayCounter, monthCounter, rfl, rfl, ?_⟩
      simp only [foundDay, foundMonth, State.counted, countInto]

/-- **The moves of a call** that count nothing. -/
inductive Moves (s : State Account Cluster Call) (recipient : Recipient Account Cluster) :
    Phase Cluster → Phase Cluster → Prop
  | hit (limits : Limits Cluster) : s.redis.limits recipient.account = some limits →
      Moves s recipient .readCache (.compare limits)
  | miss : Moves s recipient .readCache .readAccount
  | read : Moves s recipient .readAccount
      (.writeCache ((s.mailAccounts recipient.account).getD Limits.unknown))
  | cached (limits : Limits Cluster) : Moves s recipient (.writeCache limits) (.compare limits)
  | enter (limits : Limits Cluster) : limits.cluster = some recipient.cluster →
      Moves s recipient (.compare limits)
        (.runCheck limits (dayIndex s.now) (monthIndex (dayIndex s.now)))
  | ignore (limits : Limits Cluster) : limits.cluster ≠ some recipient.cluster →
      Moves s recipient (.compare limits) (.ignored limits)
  | missing (limits : Limits Cluster) (day month : ℕ) :
      Moves s recipient (.runCheck limits day month) (.readSeed limits day month)
  | seed (limits : Limits Cluster) (day month : ℕ) :
      Moves s recipient (.readSeed limits day month)
        (.runSeeded limits day month ⟨s.stored (recipient.account, .day day),
          s.stored (recipient.account, .month month)⟩)

/-- The cached limits after a call's request. -/
def cacheAfter (s : State Account Cluster Call) (recipient : Recipient Account Cluster) :
    Account → Option (Limits Cluster) :=
  match recipient.phase with
  | .writeCache limits => Function.update s.redis.limits recipient.account (some limits)
  | _ => s.redis.limits

/-- The phases that run the script, and the seed they run it with. -/
inductive Asks : Phase Cluster → Limits Cluster → ℕ → ℕ → Option Seed → Prop
  | unseeded (limits : Limits Cluster) (day month : ℕ) :
      Asks (.runCheck limits day month) limits day month none
  | seeded (limits : Limits Cluster) (day month : ℕ) (seed : Seed) :
      Asks (.runSeeded limits day month seed) limits day month (some seed)

/-- **A call's request**: a move, or the counting of its recipient. -/
theorem advance_cases {s s' : State Account Cluster Call} {call : Call}
    (taken : advance s call = some s') :
    ∃ recipient, s.calls call = some recipient ∧
      ((∃ phase, Moves s recipient recipient.phase phase ∧
          s' = { s.setPhase call recipient phase with
            redis := { s.redis with limits := cacheAfter s recipient } }) ∨
        ∃ limits day month seed dayCounter monthCounter,
          Asks recipient.phase limits day month seed ∧
          seedCounters s.redis.counters recipient.account day month seed
              (recipient.account, .day day) = some dayCounter ∧
          seedCounters s.redis.counters recipient.account day month seed
              (recipient.account, .month month) = some monthCounter ∧
          s' = s.counted call recipient limits day month seed dayCounter monthCounter) := by
  unfold advance at taken
  cases here : s.calls call with
  | none => rw [here] at taken; cases taken
  | some recipient =>
    obtain ⟨cluster, account, phase⟩ := recipient
    rw [here] at taken
    refine ⟨⟨cluster, account, phase⟩, rfl, ?_⟩
    cases phase with
    | readCache =>
      cases cached : s.redis.limits account with
      | some limits =>
        simp only [cached, Option.some.injEq] at taken
        exact Or.inl ⟨_, .hit limits cached, taken.symm⟩
      | none =>
        simp only [cached, Option.some.injEq] at taken
        exact Or.inl ⟨_, .miss, taken.symm⟩
    | readAccount =>
      simp only [Option.some.injEq] at taken
      exact Or.inl ⟨_, .read, taken.symm⟩
    | writeCache limits =>
      simp only [Option.some.injEq] at taken
      exact Or.inl ⟨_, .cached limits, taken.symm⟩
    | compare limits =>
      simp only at taken
      by_cases own : limits.cluster = some cluster
      · rw [if_pos own] at taken
        exact Or.inl ⟨_, .enter limits own, (Option.some.inj taken).symm⟩
      · rw [if_neg own] at taken
        exact Or.inl ⟨_, .ignore limits own, (Option.some.inj taken).symm⟩
    | runCheck limits day month =>
      simp only [Option.some.injEq] at taken
      rcases runScript_cases s call ⟨cluster, account, .runCheck limits day month⟩ limits day month
        none with ⟨-, moved⟩ | ⟨dayCounter, monthCounter, foundDay, foundMonth, counted⟩
      · exact Or.inl ⟨_, .missing limits day month, by rw [← taken, moved]; rfl⟩
      · exact Or.inr ⟨limits, day, month, none, dayCounter, monthCounter,
          .unseeded limits day month, foundDay, foundMonth, by rw [← taken, counted]⟩
    | readSeed limits day month =>
      simp only [Option.some.injEq] at taken
      exact Or.inl ⟨_, .seed limits day month, taken.symm⟩
    | runSeeded limits day month seed =>
      simp only [Option.some.injEq] at taken
      rcases runScript_cases s call ⟨cluster, account, .runSeeded limits day month seed⟩ limits day
        month (some seed) with ⟨absurd, -⟩ | ⟨dayCounter, monthCounter, foundDay, foundMonth, counted⟩
      · cases absurd
      · exact Or.inr ⟨limits, day, month, some seed, dayCounter, monthCounter,
          .seeded limits day month seed, foundDay, foundMonth, by rw [← taken, counted]⟩
    | ignored limits => cases taken
    | counted limits day month verdict => cases taken

/-! ### A request of the flush run -/

/-- Everything a flush request leaves as it was. -/
structure FlushFrame (s s' : State Account Cluster Call) : Prop where
  now : s'.now = s.now
  limits : s'.redis.limits = s.redis.limits
  counters : s'.redis.counters = s.redis.counters
  mailAccounts : s'.mailAccounts = s.mailAccounts
  calls : s'.calls = s.calls
  log : s'.log = s.log
  lost : s'.lost = s.lost
  deleted : s'.deleted = s.deleted

theorem flushStep_frame (s : State Account Cluster Call) : FlushFrame s (flushStep s) := by
  unfold flushStep
  split
  case h_7 key todo rows here => cases s.redis.counters key <;> constructor <;> rfl
  case h_8 rows written here => split <;> constructor <;> rfl
  all_goals constructor <;> rfl

theorem flushStep_usage (s : State Account Cluster Call) :
    (flushStep s).usage = s.usage ∨ ∃ written, s.flush = .commit written ∧
      (flushStep s).usage = written.foldl upsertRow s.usage := by
  unfold flushStep
  split
  case h_7 key todo rows here => left; cases s.redis.counters key <;> rfl
  case h_8 rows written here => left; split <;> rfl
  case h_9 written here => exact Or.inr ⟨written, here, rfl⟩
  all_goals exact Or.inl rfl

/-! ### What a commit stores -/

theorem upsertRow_self (usage : Key Account → Option UsageRow) (write : Write Account) :
    storedIn usage write.key ≤ storedIn (upsertRow usage write) write.key ∧
      write.counter ≤ storedIn (upsertRow usage write) write.key := by
  simp only [storedIn, upsertRow, Function.update_self]
  cases usage write.key with
  | none => exact ⟨⟨Nat.zero_le _, Nat.zero_le _⟩, le_refl write.counter⟩
  | some row =>
    exact ⟨⟨le_max_left _ _, le_max_left _ _⟩, ⟨le_max_right _ _, le_max_right _ _⟩⟩

theorem upsertRow_other (usage : Key Account → Option UsageRow) {write : Write Account}
    {key : Key Account} (other : key ≠ write.key) : upsertRow usage write key = usage key :=
  Function.update_of_ne other _ _

theorem upsertRow_le (usage : Key Account → Option UsageRow) (write : Write Account)
    (key : Key Account) : storedIn usage key ≤ storedIn (upsertRow usage write) key := by
  by_cases same : key = write.key
  · rw [same]
    exact (upsertRow_self usage write).1
  · simp only [storedIn, upsertRow_other usage same]
    exact le_refl _

theorem upsertAll_le (written : List (Write Account)) :
    ∀ (usage : Key Account → Option UsageRow) (key : Key Account),
      storedIn usage key ≤ storedIn (written.foldl upsertRow usage) key := by
  induction written with
  | nil => exact fun usage key => le_refl _
  | cons write rest ih =>
    intro usage key
    exact le_trans (upsertRow_le usage write key) (ih (upsertRow usage write) key)

/-- **Every row of the transaction is stored**, with at least its counts. -/
theorem upsertAll_mem {written : List (Write Account)} {write : Write Account} :
    ∀ (usage : Key Account → Option UsageRow), write ∈ written →
      write.counter ≤ storedIn (written.foldl upsertRow usage) write.key := by
  induction written with
  | nil => intro usage member; cases member
  | cons first rest ih =>
    intro usage member
    rcases List.mem_cons.mp member with rfl | member
    · exact le_trans (upsertRow_self usage write).2 (upsertAll_le rest _ _)
    · exact ih (upsertRow usage first) member

theorem upsertAll_other {written : List (Write Account)} {key : Key Account} :
    ∀ (usage : Key Account → Option UsageRow), (∀ write ∈ written, write.key ≠ key) →
      written.foldl upsertRow usage key = usage key := by
  induction written with
  | nil => exact fun usage _ => rfl
  | cons first rest ih =>
    intro usage others
    rw [List.foldl_cons, ih _ fun write member => others write (List.mem_cons_of_mem _ member)]
    exact upsertRow_other usage (others first List.mem_cons_self).symm

theorem mem_upsertRows {s : State Account Cluster Call} {rows : List (Key Account × Counter)}
    {write : Write Account} :
    write ∈ upsertRows s rows ↔ ∃ key counter limits, (key, counter) ∈ rows ∧
      s.mailAccounts key.1 = some limits ∧ write = ⟨key, counter, limitOf limits key.2, s.now⟩ := by
  unfold upsertRows
  rw [List.mem_filterMap]
  constructor
  · rintro ⟨⟨key, counter⟩, member, kept⟩
    obtain ⟨limits, found, rfl⟩ := Option.map_eq_some_iff.mp kept
    exact ⟨key, counter, limits, member, found, rfl⟩
  · rintro ⟨key, counter, limits, member, found, rfl⟩
    exact ⟨(key, counter), member, by rw [found]; rfl⟩

/-! ### The actions -/

/-- **The steps of the system**, each with what it needs and what it leaves. -/
inductive Steps (s : State Account Cluster Call) :
    Action Account Cluster Call → State Account Cluster Call → Prop
  | tick (seconds : ℕ) : Steps s (.tick seconds) { s with now := s.now + seconds }
  | start (call : Call) (cluster : Cluster) (account : Account) : s.calls call = none →
      Steps s (.start call cluster account)
        { s with calls := Function.update s.calls call (some ⟨cluster, account, .readCache⟩) }
  | advance {call : Call} {s' : State Account Cluster Call} :
      SendingLimits.advance s call = some s' → Steps s (.advance call) s'
  | flush : Steps s .flush (flushStep s)
  | flushFails : Steps s .flushFails { s with flush := .idle }
  | saveAccount (account : Account) (limits : Limits Cluster) :
      Steps s (.saveAccount account limits)
        { s with mailAccounts := Function.update s.mailAccounts account (some limits) }
  | clearLimits (account : Account) : Steps s (.clearLimits account) (s.cacheLimits account none)
  | deleteAccount (account : Account) : Steps s (.deleteAccount account)
      { s with
        mailAccounts := Function.update s.mailAccounts account none
        usage := fun key => if key.1 = account then none else s.usage key
        deleted := Function.update s.deleted account true }
  | drop (key : Key Account) (counter : Counter) : s.redis.counters key = some counter →
      Steps s (.drop key)
        { s with
          redis := { s.redis with counters := Function.update s.redis.counters key none }
          lost := Function.update s.lost key
            (s.lost key + (counter.sent - (s.stored key).sent)) }

theorem steps_of_step {s s' : State Account Cluster Call} {action : Action Account Cluster Call}
    (taken : step s action = some s') : Steps s action s' := by
  cases action with
  | advance call => exact .advance taken
  | start call cluster account =>
    simp only [step] at taken
    cases here : s.calls call with
    | some recipient => rw [here] at taken; cases taken
    | none =>
      rw [here] at taken
      obtain rfl := Option.some.inj taken
      exact .start call cluster account here
  | flushFails =>
    simp only [step] at taken
    split at taken
    · cases taken
    · obtain rfl := Option.some.inj taken
      exact .flushFails
  | drop key =>
    simp only [step] at taken
    cases here : s.redis.counters key with
    | none => rw [here] at taken; cases taken
    | some counter =>
      rw [here] at taken
      obtain rfl := Option.some.inj taken
      exact .drop key counter here
  | flush => obtain rfl := Option.some.inj taken; exact .flush
  | tick seconds => obtain rfl := Option.some.inj taken; exact .tick seconds
  | saveAccount account limits =>
    obtain rfl := Option.some.inj taken
    exact .saveAccount account limits
  | clearLimits account => obtain rfl := Option.some.inj taken; exact .clearLimits account
  | deleteAccount account => obtain rfl := Option.some.inj taken; exact .deleteAccount account

/-! ### Counters only grow -/

theorem Counter.le_count (counter : Counter) (verdict : Verdict) :
    counter ≤ counter.count verdict := by
  cases verdict with
  | accepted => exact ⟨Nat.le_succ _, le_rfl⟩
  | daily => exact ⟨le_rfl, Nat.le_succ _⟩
  | monthly => exact ⟨le_rfl, Nat.le_succ _⟩

theorem seedCounters_present {counters : Key Account → Option Counter} (account : Account)
    (day month : ℕ) (seed : Option Seed) {key : Key Account} {counter : Counter}
    (present : counters key = some counter) :
    seedCounters counters account day month seed key = some counter := by
  cases seed with
  | none => exact present
  | some given =>
    rw [seedCounters, hsetnx, hsetnx]
    by_cases isMonth : key = (account, .month month)
    · subst isMonth
      rw [Function.update_self, Function.update_of_ne (day_ne_month account day month).symm,
        present]
      rfl
    · rw [Function.update_of_ne isMonth]
      by_cases isDay : key = (account, .day day)
      · subst isDay
        rw [Function.update_self, present]
        rfl
      · rw [Function.update_of_ne isDay, present]

theorem counter_grows {s s' : State Account Cluster Call} {action : Action Account Cluster Call}
    {key : Key Account} {counter : Counter} (steps : Steps s action s')
    (kept : action ≠ .drop key) (present : s.redis.counters key = some counter) :
    ∃ grown, s'.redis.counters key = some grown ∧ counter ≤ grown := by
  cases steps with
  | advance taken =>
    obtain ⟨recipient, here, ⟨phase, moves, rfl⟩ | ⟨limits, day, month, seed, dayCounter,
      monthCounter, asks, foundDay, foundMonth, rfl⟩⟩ := advance_cases taken
    · exact ⟨counter, present, le_refl _⟩
    · have seeded := seedCounters_present recipient.account day month seed present
      simp only [State.counted]
      by_cases isMonth : key = (recipient.account, .month month)
      · subst isMonth
        obtain rfl := Option.some.inj (foundMonth.symm.trans seeded)
        exact ⟨_, countInto_month _ _ _ _ _ _ _, Counter.le_count _ _⟩
      · by_cases isDay : key = (recipient.account, .day day)
        · subst isDay
          obtain rfl := Option.some.inj (foundDay.symm.trans seeded)
          exact ⟨_, countInto_day _ _ _ _ _ _ _, Counter.le_count _ _⟩
        · refine ⟨counter, ?_, le_refl _⟩
          rw [countInto_other _ _ _ _ isDay isMonth, seeded]
  | flush => exact ⟨counter, by rw [(flushStep_frame s).counters, present], le_refl _⟩
  | drop other dropped there =>
    have different : key ≠ other := by
      rintro rfl
      exact kept rfl
    exact ⟨counter, by simp only [Function.update_of_ne different, present], le_refl _⟩
  | tick seconds => exact ⟨counter, present, le_refl _⟩
  | start call cluster account fresh => exact ⟨counter, present, le_refl _⟩
  | flushFails => exact ⟨counter, present, le_refl _⟩
  | saveAccount account limits => exact ⟨counter, present, le_refl _⟩
  | clearLimits account => exact ⟨counter, present, le_refl _⟩
  | deleteAccount account => exact ⟨counter, present, le_refl _⟩

end SuiteCloud.Mail.SendingLimits
