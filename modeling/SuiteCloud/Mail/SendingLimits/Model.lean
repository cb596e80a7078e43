/-
**Sending limits: the counters in Redis, `count_recipient` and `flush_usage`.**

`suite_cloud/mail/sending_limits.py` and `mail_send_usage.py`. Any number of `count_recipient` calls
run at once, each a sequence of single Redis or database requests, beside one `flush_usage` run at a
time and the saves and deletes of Mail Accounts. `step` takes one request of one of them.

### The state

* `Redis` — the cached limits, one counter per account and period, and the two sets `touched` and
  `touched:flushing` (lists without repetition; a Redis set exists exactly when it is not empty).
  A counter hash is written by `CHECK_SCRIPT` only, which always sets both of its fields.
* `State` — Redis, the committed rows of Mail Account and Mail Send Usage, the clock, the calls and
  the flush run; and three records of the past that no code reads: `log` (every counting step, newest
  first), `lost` (what Redis dropped of a counter that no committed row holds) and `deleted`.

### The steps

* `checkScript` — `CHECK_SCRIPT`, one atomic run.
* `advance` — the next request of a call: the cached limits, on a miss the Mail Account and the cache
  write, the cluster check and the clock, the script, and when it answers `seed` the stored usage and
  the script again.
* `flushStep` — the next request of a flush run, from the first `EXISTS` to the last `DEL`; the
  counters are read one by one. `flushFails` ends a run anywhere: its open transaction is rolled back.
* `drop` — Redis loses a counter (an eviction, an expiry, a restart).

A day is numbered by `dayIndex`, a month by `monthIndex`; the texts `d:%Y%m%d` and `m:%Y%m` of the
source name the same periods.
-/

import Mathlib.Logic.Function.Basic
import Mathlib.Order.Lattice
import SuiteCloud.Library.Calendar
import SuiteCloud.Library.Maps
import SuiteCloud.Library.Transition

namespace SuiteCloud.Mail.SendingLimits

open SuiteCloud.Library

/-! ## Periods -/

/-- The UTC day or month a counter covers. -/
inductive Period
  | day (index : ℕ)
  | month (index : ℕ)
  deriving DecidableEq

/-- The day and month the counters use. -/
def periodsAt (moment : ℕ) : Period × Period :=
  (.day (dayIndex moment), .month (monthIndex (dayIndex moment)))

/-- The current day and month. -/
def currentPeriods (now : ℕ) : List Period := [(periodsAt now).1, (periodsAt now).2]

/-- Today, this month and the ones before: a flush may run just after midnight. -/
def reportablePeriods (now : ℕ) : List Period :=
  currentPeriods now ++ currentPeriods (now - 86400)

/-! ## Data -/

/-- An account's cluster (`none` for an address that is no Mail Account) and limits. -/
structure Limits (Cluster : Type) where
  cluster : Option Cluster
  daily : ℕ
  monthly : ℕ
  deriving DecidableEq

/-- The limits of an address that is no Mail Account. -/
def Limits.unknown {Cluster : Type} : Limits Cluster := ⟨none, 0, 0⟩

/-- A counter hash. -/
structure Counter where
  sent : ℕ
  refused : ℕ
  deriving DecidableEq

/-- Both counts are at most the other's. -/
instance : Preorder Counter where
  le first second := first.sent ≤ second.sent ∧ first.refused ≤ second.refused
  le_refl _ := ⟨le_rfl, le_rfl⟩
  le_trans _ _ _ first second := ⟨first.1.trans second.1, first.2.trans second.2⟩

/-- The day and month counts `get_seed` reads. -/
structure Seed where
  day : Counter
  month : Counter
  deriving DecidableEq

/-- What the script answers about a counted recipient. -/
inductive Verdict
  | accepted
  | daily
  | monthly
  deriving DecidableEq

/-- A committed Mail Send Usage row. -/
structure UsageRow where
  sent : ℕ
  refused : ℕ
  sendLimit : ℕ
  reportedAt : ℕ
  deriving DecidableEq

/-- A counter's account and period; the set members `<account>|<period>` name it. -/
abbrev Key (Account : Type) := Account × Period

variable {Account Cluster Call : Type}

/-- What Suite Cloud keeps in Redis under `sending_limits:`. -/
structure Redis (Account Cluster : Type) where
  limits : Account → Option (Limits Cluster)
  counters : Key Account → Option Counter
  touched : List (Key Account)
  flushing : List (Key Account)

/-! ## The script -/

/-- `''`, `'daily'` or `'monthly'`, from the counts before this recipient. -/
def verdictOf (limits : Limits Cluster) (day month : Counter) : Verdict :=
  if day.sent + 1 > limits.daily then .daily
  else if month.sent + 1 > limits.monthly then .monthly
  else .accepted

/-- One recipient more, sent or refused. -/
def Counter.count (counter : Counter) : Verdict → Counter
  | .accepted => { counter with sent := counter.sent + 1 }
  | .daily => { counter with refused := counter.refused + 1 }
  | .monthly => { counter with refused := counter.refused + 1 }

/-- The script's reply. -/
inductive Reply
  | seed
  | counted (verdict : Verdict) (daySent monthSent : ℕ)

section Script

variable [DecidableEq Account]

/-- `HSETNX` of both fields: a counter that exists is left alone. -/
def hsetnx (counters : Key Account → Option Counter) (key : Key Account) (seed : Counter) :
    Key Account → Option Counter :=
  Function.update counters key (some ((counters key).getD seed))

/-- The counters after the script's first branch: with a seed, both exist. -/
def seedCounters (counters : Key Account → Option Counter) (account : Account) (day month : ℕ) :
    Option Seed → Key Account → Option Counter
  | none => counters
  | some seed => hsetnx (hsetnx counters (account, .day day) seed.day) (account, .month month)
      seed.month

/-- **`CHECK_SCRIPT`.** Without a seed a missing counter is asked for; else the recipient is counted
in both counters, sent when both limits have room and refused otherwise, and both are touched. -/
def checkScript (redis : Redis Account Cluster) (account : Account) (day month : ℕ)
    (limits : Limits Cluster) (seed : Option Seed) : Reply × Redis Account Cluster :=
  let counters := seedCounters redis.counters account day month seed
  match counters (account, .day day), counters (account, .month month) with
  | some dayCounter, some monthCounter =>
      let verdict := verdictOf limits dayCounter monthCounter
      let counted := Function.update
        (Function.update counters (account, .day day) (some (dayCounter.count verdict)))
        (account, .month month) (some (monthCounter.count verdict))
      (.counted verdict (dayCounter.count verdict).sent (monthCounter.count verdict).sent,
        { redis with
          counters := counted
          touched := (redis.touched.insert (account, .day day)).insert (account, .month month) })
  | _, _ => (.seed, redis)

end Script

/-! ## `count_recipient` -/

/-- Where a `count_recipient` call stands: the request it makes next, or what it returned. -/
inductive Phase (Cluster : Type)
  /-- `get_limits` reads the cache. -/
  | readCache
  /-- The cache missed: `get_limits` reads Mail Account. -/
  | readAccount
  /-- `get_limits` caches what it read. -/
  | writeCache (limits : Limits Cluster)
  /-- The cluster check, and the clock. -/
  | compare (limits : Limits Cluster)
  /-- `run_check` without a seed. -/
  | runCheck (limits : Limits Cluster) (day month : ℕ)
  /-- The script answered `seed`. -/
  | readSeed (limits : Limits Cluster) (day month : ℕ)
  /-- `run_check` with the seed read. -/
  | runSeeded (limits : Limits Cluster) (day month : ℕ) (seed : Seed)
  /-- Returned `None` for an account of another cluster, uncounted. -/
  | ignored (limits : Limits Cluster)
  /-- Returned after counting; the refusal message names the verdict's limit. -/
  | counted (limits : Limits Cluster) (day month : ℕ) (verdict : Verdict)

/-- A call of `count_recipient(cluster, account)`. -/
structure Recipient (Account Cluster : Type) where
  cluster : Cluster
  account : Account
  phase : Phase Cluster

/-- One counting step: which call counted which account in which periods, and how. -/
structure Count (Account Cluster Call : Type) where
  call : Call
  account : Account
  day : ℕ
  month : ℕ
  limits : Limits Cluster
  verdict : Verdict

/-! ## `flush_usage` -/

/-- One row of the upsert, with the limit and the time the statement carries. -/
structure Write (Account : Type) where
  key : Key Account
  counter : Counter
  limit : ℕ
  now : ℕ

/-- Where a `flush_usage` run stands: the request it makes next. -/
inductive Flush (Account : Type)
  /-- No run is going on; the next one asks whether `flushing` exists. -/
  | idle
  /-- It does not; whether `touched` does. -/
  | checkTouched
  | rename
  | readMembers
  /-- `reportable_periods` of the members read. -/
  | pickPeriods (members : List (Key Account))
  | readCounters (todo : List (Key Account)) (rows : List (Key Account × Counter))
  /-- The batches still to write, and the rows of the open transaction. -/
  | upsert (rows : List (Key Account × Counter)) (written : List (Write Account))
  | commit (written : List (Write Account))
  | delete

/-- Rows one statement stores. -/
def flushBatch : ℕ := 5000

/-! ## The whole state -/

structure State (Account Cluster Call : Type) where
  now : ℕ
  redis : Redis Account Cluster
  mailAccounts : Account → Option (Limits Cluster)
  usage : Key Account → Option UsageRow
  calls : Call → Option (Recipient Account Cluster)
  flush : Flush Account
  log : List (Count Account Cluster Call)
  lost : Key Account → ℕ
  deleted : Account → Bool

/-- Before anything was counted: any Mail Accounts, no cache, no usage, no call. -/
def State.initial (now : ℕ) (mailAccounts : Account → Option (Limits Cluster)) :
    State Account Cluster Call where
  now := now
  redis := ⟨fun _ => none, fun _ => none, [], []⟩
  mailAccounts := mailAccounts
  usage := fun _ => none
  calls := fun _ => none
  flush := .idle
  log := []
  lost := fun _ => 0
  deleted := fun _ => false

/-- The counts a table of usage rows holds for a period, zero where no row is stored. -/
def storedIn (usage : Key Account → Option UsageRow) (key : Key Account) : Counter :=
  match usage key with
  | some row => ⟨row.sent, row.refused⟩
  | none => ⟨0, 0⟩

/-- The committed counts of a period. -/
def State.stored (s : State Account Cluster Call) (key : Key Account) : Counter :=
  storedIn s.usage key

section Steps

variable [DecidableEq Account] [DecidableEq Cluster] [DecidableEq Call]

/-- Moves a call on. -/
def State.setPhase (s : State Account Cluster Call) (call : Call)
    (recipient : Recipient Account Cluster) (phase : Phase Cluster) : State Account Cluster Call :=
  { s with calls := Function.update s.calls call (some { recipient with phase := phase }) }

/-- A run of the script by a call: counted and logged, or sent for a seed. -/
def State.runScript (s : State Account Cluster Call) (call : Call)
    (recipient : Recipient Account Cluster) (limits : Limits Cluster) (day month : ℕ)
    (seed : Option Seed) : State Account Cluster Call :=
  match checkScript s.redis recipient.account day month limits seed with
  | (.seed, _) => s.setPhase call recipient (.readSeed limits day month)
  | (.counted verdict _ _, redis) =>
      { s.setPhase call recipient (.counted limits day month verdict) with
        redis := redis
        log := ⟨call, recipient.account, day, month, limits, verdict⟩ :: s.log }

/-- Caches an account's limits. -/
def State.cacheLimits (s : State Account Cluster Call) (account : Account)
    (limits : Option (Limits Cluster)) : State Account Cluster Call :=
  { s with redis := { s.redis with limits := Function.update s.redis.limits account limits } }

/-- **The next request of a call.** -/
def advance (s : State Account Cluster Call) (call : Call) : Option (State Account Cluster Call) :=
  match s.calls call with
  | none => none
  | some recipient =>
    match recipient.phase with
    | .readCache =>
        match s.redis.limits recipient.account with
        | some limits => some (s.setPhase call recipient (.compare limits))
        | none => some (s.setPhase call recipient .readAccount)
    | .readAccount =>
        let limits := (s.mailAccounts recipient.account).getD Limits.unknown
        some (s.setPhase call recipient (.writeCache limits))
    | .writeCache limits =>
        some ((s.cacheLimits recipient.account (some limits)).setPhase call recipient
          (.compare limits))
    | .compare limits =>
        if limits.cluster = some recipient.cluster then
          some (s.setPhase call recipient
            (.runCheck limits (dayIndex s.now) (monthIndex (dayIndex s.now))))
        else some (s.setPhase call recipient (.ignored limits))
    | .runCheck limits day month => some (s.runScript call recipient limits day month none)
    | .readSeed limits day month =>
        let seed : Seed := ⟨s.stored (recipient.account, .day day),
          s.stored (recipient.account, .month month)⟩
        some (s.setPhase call recipient (.runSeeded limits day month seed))
    | .runSeeded limits day month seed =>
        some (s.runScript call recipient limits day month (some seed))
    | .ignored _ => none
    | .counted _ _ _ _ => none

/-- The limit a row is stored with: the daily one for a day, the monthly one for a month. -/
def limitOf (limits : Limits Cluster) : Period → ℕ
  | .day _ => limits.daily
  | .month _ => limits.monthly

/-- One batch of `upsert_usage`: rows of accounts deleted meanwhile are left out. -/
def upsertRows (s : State Account Cluster Call) (rows : List (Key Account × Counter)) :
    List (Write Account) :=
  rows.filterMap fun row =>
    (s.mailAccounts row.1.1).map fun limits => ⟨row.1, row.2, limitOf limits row.1.2, s.now⟩

/-- `ON DUPLICATE KEY UPDATE`: the higher counts are kept, and a past period keeps its limit. -/
def upsertRow (usage : Key Account → Option UsageRow) (write : Write Account) :
    Key Account → Option UsageRow :=
  Function.update usage write.key <| some <|
    match usage write.key with
    | none => ⟨write.counter.sent, write.counter.refused, write.limit, write.now⟩
    | some row =>
        ⟨max row.sent write.counter.sent, max row.refused write.counter.refused,
          if write.key.2 ∈ currentPeriods write.now then write.limit else row.sendLimit, write.now⟩

/-- **The next request of the flush run.** -/
def flushStep (s : State Account Cluster Call) : State Account Cluster Call :=
  match s.flush with
  | .idle => { s with flush := if s.redis.flushing = [] then .checkTouched else .readMembers }
  | .checkTouched => { s with flush := if s.redis.touched = [] then .idle else .rename }
  | .rename =>
      { s with
        redis := { s.redis with touched := [], flushing := s.redis.touched }
        flush := .readMembers }
  | .readMembers => { s with flush := .pickPeriods s.redis.flushing }
  | .pickPeriods members =>
      { s with flush := .readCounters (members.filter (·.2 ∈ reportablePeriods s.now)) [] }
  | .readCounters [] rows => { s with flush := .upsert rows [] }
  | .readCounters (key :: todo) rows =>
      match s.redis.counters key with
      | some counter => { s with flush := .readCounters todo (rows ++ [(key, counter)]) }
      | none => { s with flush := .readCounters todo rows }
  | .upsert rows written =>
      if rows = [] then { s with flush := .commit written }
      else
        { s with
          flush := .upsert (rows.drop flushBatch)
            (written ++ upsertRows s (rows.take flushBatch)) }
  | .commit written => { s with usage := written.foldl upsertRow s.usage, flush := .delete }
  | .delete => { s with redis := { s.redis with flushing := [] }, flush := .idle }

/-- What can happen next. -/
inductive Action (Account Cluster Call : Type)
  | tick (seconds : ℕ)
  /-- A worker starts `count_recipient(cluster, account)`. -/
  | start (call : Call) (cluster : Cluster) (account : Account)
  | advance (call : Call)
  | flush
  /-- The flush run raises, or its worker dies. -/
  | flushFails
  /-- An insert or save of a Mail Account commits. -/
  | saveAccount (account : Account) (limits : Limits Cluster)
  /-- The cached limits go: the clear after a save's commit, or their expiry. -/
  | clearLimits (account : Account)
  /-- A delete of a Mail Account commits, with its usage rows. -/
  | deleteAccount (account : Account)
  /-- Redis loses a counter. -/
  | drop (key : Key Account)

/-- **One step of the whole system.** -/
def step (s : State Account Cluster Call) :
    Action Account Cluster Call → Option (State Account Cluster Call)
  | .tick seconds => some { s with now := s.now + seconds }
  | .start call cluster account =>
      match s.calls call with
      | some _ => none
      | none =>
          some { s with calls := Function.update s.calls call (some ⟨cluster, account, .readCache⟩) }
  | .advance call => advance s call
  | .flush => some (flushStep s)
  | .flushFails => if s.flush matches .idle then none else some { s with flush := .idle }
  | .saveAccount account limits =>
      some { s with mailAccounts := Function.update s.mailAccounts account (some limits) }
  | .clearLimits account => some (s.cacheLimits account none)
  | .deleteAccount account =>
      some { s with
        mailAccounts := Function.update s.mailAccounts account none
        usage := fun key => if key.1 = account then none else s.usage key
        deleted := Function.update s.deleted account true }
  | .drop key =>
      match s.redis.counters key with
      | none => none
      | some counter =>
          some { s with
            redis := { s.redis with counters := Function.update s.redis.counters key none }
            lost := Function.update s.lost key
              (s.lost key + (counter.sent - (s.stored key).sent)) }

end Steps

end SuiteCloud.Mail.SendingLimits
