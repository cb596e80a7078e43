/-
**Sending limits hold under any interleaving.**

Any number of `count_recipient` calls, interleaved request by request with each other, with the flush
run and with the saves and deletes of Mail Accounts.

### What is proved

* `exact_reached` — while Redis loses nothing (`noLoss`), every counter equals the `tally` of the log:
  nothing is counted twice, dropped, or counted in only one of the two periods.
* `Decided` — each entry's verdict is `verdictOf` of the tallies before it.
* `call_progress` — a call that has not returned always has a next request, and fewer of them left
  after it.
* `bounded_reached` — when Redis drops counters for which no call holds a seed (`lossBetweenSeeds`),
  the accepted recipients of a period are at most the count plus what was `lost`.
* `countRecipient_limits_hold` — the four together, and the limits that follow: with limits of at most
  `bound`, an account has at most `bound` accepted recipients in the period, plus, with losses, the
  sum over the drops of its counter of what the committed row did not hold.
-/

import SuiteCloud.Mail.SendingLimits.Counting

set_option linter.unusedSectionVars false

namespace SuiteCloud.Mail.SendingLimits

open SuiteCloud.Library

variable {Account Cluster Call : Type}
variable [DecidableEq Account] [DecidableEq Cluster] [DecidableEq Call]

/-! ## The runs -/

/-- Redis loses a counter only while no call holds a seed for it. -/
def lossBetweenSeeds (s : State Account Cluster Call) : Action Account Cluster Call → Prop
  | .drop key => ∀ call recipient counter, s.calls call = some recipient →
      ¬ HoldsSeed recipient key counter
  | _ => True

/-- The accounts of `home` exist and stay on their cluster. -/
def staysHome (home : Account → Option Cluster) (_ : State Account Cluster Call) :
    Action Account Cluster Call → Prop
  | .saveAccount account limits => ∀ cluster, home account = some cluster →
      limits.cluster = some cluster
  | .deleteAccount account => home account = none
  | _ => True

/-! ## Without a loss, the counters are exact -/

/-- A flush run holds a row of the key, read or written. -/
inductive Carries (key : Key Account) : Flush Account → Prop
  | read (todo : List (Key Account)) (rows : List (Key Account × Counter)) (counter : Counter) :
      (key, counter) ∈ rows → Carries key (.readCounters todo rows)
  | batched (rows : List (Key Account × Counter)) (written : List (Write Account))
      (counter : Counter) : (key, counter) ∈ rows → Carries key (.upsert rows written)
  | written (rows : List (Key Account × Counter)) (written : List (Write Account))
      (write : Write Account) : write ∈ written → write.key = key → Carries key (.upsert rows written)
  | ready (written : List (Write Account)) (write : Write Account) :
      write ∈ written → write.key = key → Carries key (.commit written)

theorem carries_flushStep {s : State Account Cluster Call} {key : Key Account}
    (carries : Carries key (flushStep s).flush) :
    Carries key s.flush ∨ s.redis.counters key ≠ none := by
  unfold flushStep at carries
  split at carries
  case h_1 => simp only at carries; split at carries <;> cases carries
  case h_2 => simp only at carries; split at carries <;> cases carries
  case h_3 => cases carries
  case h_4 => cases carries
  case h_5 => cases carries with | read _ _ _ member => cases member
  case h_6 rows here =>
    rw [here]
    cases carries with
    | batched _ _ counter member => exact Or.inl (.read _ _ counter member)
    | written _ _ _ member => cases member
  case h_7 first todo rows here =>
    rw [here]
    cases found : s.redis.counters first with
    | none =>
      rw [found] at carries
      cases carries with | read _ _ counter member => exact Or.inl (.read _ _ counter member)
    | some counter =>
      rw [found] at carries
      cases carries with
      | read _ _ carried member =>
        rcases List.mem_append.mp member with member | member
        · exact Or.inl (.read _ _ carried member)
        · simp only [List.mem_singleton, Prod.mk.injEq] at member
          obtain ⟨rfl, -⟩ := member
          exact Or.inr (by rw [found]; exact Option.some_ne_none _)
  case h_8 rows written here =>
    rw [here]
    left
    split at carries
    · cases carries with | ready _ write member same => exact .written _ _ write member same
    · cases carries with
      | batched _ _ counter member => exact .batched _ _ counter (List.mem_of_mem_drop member)
      | written _ _ write member same =>
        rcases List.mem_append.mp member with member | member
        · exact .written _ _ write member same
        · obtain ⟨carried, counter, limits, among, -, rfl⟩ := mem_upsertRows.mp member
          subst same
          exact .batched _ _ counter (List.mem_of_mem_take among)
  case h_9 => cases carries
  case h_10 => cases carries

/-- **Nothing is stored, and nothing on its way to be, for a counter that never existed.** -/
structure Unstored (s : State Account Cluster Call) : Prop where
  usage : ∀ {key}, s.redis.counters key = none → s.usage key = none
  flush : ∀ {key}, Carries key s.flush → s.redis.counters key ≠ none

theorem absent_before {s s' : State Account Cluster Call} {action : Action Account Cluster Call}
    {key : Key Account} (steps : Steps s action s') (allowed : noLoss s action)
    (absent : s'.redis.counters key = none) : s.redis.counters key = none := by
  cases here : s.redis.counters key with
  | none => rfl
  | some counter =>
    have kept : action ≠ .drop key := by
      rintro rfl
      exact allowed
    obtain ⟨grown, found, -⟩ := counter_grows steps kept here
    rw [absent] at found
    cases found

/-- A step leaves the rows and the flush run alone, unless it is the flush's own, or a delete. -/
theorem Unstored.step {s s' : State Account Cluster Call} {action : Action Account Cluster Call}
    (unstored : Unstored s) (steps : Steps s action s') (allowed : noLoss s action) :
    Unstored s' := by
  have before : ∀ {key}, s'.redis.counters key = none → s.redis.counters key = none :=
    fun absent => absent_before steps allowed absent
  have usage : ∀ {key}, s'.redis.counters key = none → s.usage key = none :=
    fun absent => unstored.usage (before absent)
  have carried : ∀ {key}, Carries key s.flush → s'.redis.counters key ≠ none :=
    fun carries absent => unstored.flush carries (before absent)
  cases steps with
  | flush =>
    refine ⟨?_, ?_⟩
    · intro key absent
      rcases flushStep_usage s with same | ⟨written, here, stored⟩
      · rw [same]
        exact usage absent
      · rw [stored, upsertAll_other, usage absent]
        intro write member same
        exact carried (by rw [here]; exact .ready written write member same) absent
    · intro key carries
      rcases carries_flushStep carries with carries | present
      · exact carried carries
      · rw [(flushStep_frame s).counters]
        exact present
  | advance taken =>
    obtain ⟨recipient, -, ⟨phase, -, rfl⟩ | ⟨limits, day, month, seed, dayCounter, monthCounter, -,
      -, -, rfl⟩⟩ := advance_cases taken
    · exact ⟨usage, carried⟩
    · exact ⟨usage, carried⟩
  | deleteAccount account =>
    refine ⟨?_, carried⟩
    intro key absent
    simp only [usage absent, ite_self]
  | flushFails =>
    refine ⟨usage, ?_⟩
    intro key carries
    cases carries
  | tick seconds => exact ⟨usage, carried⟩
  | start call cluster account fresh => exact ⟨usage, carried⟩
  | saveAccount account limits => exact ⟨usage, carried⟩
  | clearLimits account => exact ⟨usage, carried⟩
  | drop key counter present => exact allowed.elim

/-- Right, where nothing is lost: the counter is the tally of the log. -/
def Exact (log : List (Count Account Cluster Call)) (key : Key Account) (counter : Counter) : Prop :=
  counter = tally log key

theorem exact_countsRight : CountsRight (@Exact Account Cluster Call _) where
  covered exact covered := by
    rw [Exact, tally_covered covered, ← exact]
  other exact other := by
    rw [Exact, tally_other other, ← exact]

theorem exact_step {s s' : State Account Cluster Call} {action : Action Account Cluster Call}
    (tracks : Tracks Exact s) (unstored : Unstored s) (steps : Steps s action s')
    (allowed : noLoss s action) : Tracks Exact s' := by
  have unstored' := unstored.step steps allowed
  -- A step that writes rows writes none for a counter that does not exist.
  have stored : s'.redis.counters = s.redis.counters → ∀ {key}, s.redis.counters key = none →
      Exact s.log key (s.stored key) → Exact s.log key (s'.stored key) := by
    intro counters key absent exact
    rw [State.stored, storedIn, unstored'.usage (by rw [counters, absent])]
    rw [State.stored, storedIn, unstored.usage absent] at exact
    exact exact
  cases steps with
  | advance taken => exact tracks.advance exact_countsRight taken
  | start call cluster account fresh => exact tracks.started
  | flush =>
    have frame := flushStep_frame s
    exact tracks.frame frame.counters frame.log frame.calls (stored frame.counters)
  | drop key counter present => exact allowed.elim
  | tick seconds => exact tracks.frame rfl rfl rfl (stored rfl)
  | flushFails => exact tracks.frame rfl rfl rfl (stored rfl)
  | saveAccount account limits => exact tracks.frame rfl rfl rfl (stored rfl)
  | clearLimits account => exact tracks.frame rfl rfl rfl (stored rfl)
  | deleteAccount account => exact tracks.frame rfl rfl rfl (stored rfl)

/-! ## The verdicts -/

theorem verdictOf_accepted {limits : Limits Cluster} {day month : Counter} :
    verdictOf limits day month = .accepted ↔
      day.sent + 1 ≤ limits.daily ∧ month.sent + 1 ≤ limits.monthly := by
  unfold verdictOf
  split
  case isTrue exceeds => exact ⟨fun same => (nomatch same), fun room => absurd room.1 (by omega)⟩
  case isFalse roomDaily =>
    split
    case isTrue exceeds => exact ⟨fun same => (nomatch same), fun room => absurd room.2 (by omega)⟩
    case isFalse roomMonthly => exact ⟨fun _ => ⟨by omega, by omega⟩, fun _ => rfl⟩

theorem accepted_fits {limits : Limits Cluster} {account : Account} {day month : ℕ}
    {counts : Key Account → Counter} {key : Key Account}
    (accepted : verdictOf limits (counts (account, .day day)) (counts (account, .month month))
      = .accepted)
    (counted : key = (account, .day day) ∨ key = (account, .month month)) :
    (counts key).sent + 1 ≤ limitOf limits key.2 := by
  have room := verdictOf_accepted.mp accepted
  rcases counted with rfl | rfl
  · exact room.1
  · exact room.2

/-- **Each verdict is the one of the tallies before it.** -/
def Decided : List (Count Account Cluster Call) → Prop
  | [] => True
  | count :: earlier =>
      count.verdict = verdictOf count.limits (tally earlier (count.account, .day count.day))
        (tally earlier (count.account, .month count.month)) ∧ Decided earlier

theorem Decided.at {count : Count Account Cluster Call} {earlier : List (Count Account Cluster Call)} :
    ∀ {later : List (Count Account Cluster Call)}, Decided (later ++ count :: earlier) →
      count.verdict = verdictOf count.limits (tally earlier (count.account, .day count.day))
        (tally earlier (count.account, .month count.month))
  | [], decided => decided.1
  | _ :: _, decided => Decided.at decided.2

theorem Decided.acceptedIn_le {key : Key Account} {bound : ℕ} :
    ∀ {log : List (Count Account Cluster Call)}, Decided log →
      (∀ count ∈ log, count.covers key = true → limitOf count.limits key.2 ≤ bound) →
      acceptedIn log key ≤ bound
  | [], _, _ => Nat.zero_le _
  | count :: earlier, decided, limited => by
      have before : acceptedIn earlier key ≤ bound :=
        Decided.acceptedIn_le decided.2 fun entry member =>
          limited entry (List.mem_cons_of_mem _ member)
      by_cases covered : count.covers key = true
      · have tallied := congrArg Counter.sent (tally_covered covered earlier)
        have limit := limited count List.mem_cons_self covered
        cases verdict : count.verdict with
        | accepted =>
          rw [verdict] at tallied
          have fits := accepted_fits (verdict.symm.trans decided.1).symm (covers_iff.mp covered)
          exact (le_of_eq tallied).trans (fits.trans limit)
        | daily =>
          rw [verdict] at tallied
          exact (le_of_eq tallied).trans before
        | monthly =>
          rw [verdict] at tallied
          exact (le_of_eq tallied).trans before
      · exact (le_of_eq (congrArg Counter.sent (tally_other covered earlier))).trans before

theorem decided_step {s s' : State Account Cluster Call} {action : Action Account Cluster Call}
    (decided : Decided s.log) (tracks : Tracks Exact s) (steps : Steps s action s') :
    Decided s'.log := by
  cases steps with
  | advance taken =>
    obtain ⟨recipient, here, ⟨phase, moves, rfl⟩ | ⟨limits, day, month, seed, dayCounter,
      monthCounter, asks, foundDay, foundMonth, rfl⟩⟩ := advance_cases taken
    · exact decided
    · refine ⟨?_, decided⟩
      rw [tracks.found_day here asks foundDay, tracks.found_month here asks foundMonth]
  | flush => rw [(flushStep_frame s).log]; exact decided
  | tick seconds => exact decided
  | start call cluster account fresh => exact decided
  | flushFails => exact decided
  | saveAccount account limits => exact decided
  | clearLimits account => exact decided
  | deleteAccount account => exact decided
  | drop key counter present => exact decided

/-- **Without a loss, every state has exact counters and decided verdicts.** -/
theorem exact_reached {now : ℕ} {mailAccounts : Account → Option (Limits Cluster)}
    {s : State Account Cluster Call}
    (reached : Reaches step noLoss (State.initial now mailAccounts) s) :
    Tracks Exact s ∧ Unstored s ∧ Decided s.log := by
  refine reached.invariant (fun s => Tracks Exact s ∧ Unstored s ∧ Decided s.log) ?_ ?_
  · refine ⟨Tracks.initial fun _ => rfl, ⟨fun _ => rfl, ?_⟩, trivial⟩
    intro key carries
    cases carries
  · rintro here there action ⟨tracks, unstored, decided⟩ allowed taken
    have steps := steps_of_step taken
    exact ⟨exact_step tracks unstored steps allowed, unstored.step steps allowed,
      decided_step decided tracks steps⟩

/-! ## With losses, the excess is what was lost -/

/-- Right, where counters are dropped: the accepted recipients are the count and what was lost. -/
def Bounded (lost : Key Account → ℕ) (deleted : Account → Bool)
    (log : List (Count Account Cluster Call)) (key : Key Account) (counter : Counter) : Prop :=
  deleted key.1 = false → acceptedIn log key ≤ counter.sent + lost key

theorem bounded_countsRight (lost : Key Account → ℕ) (deleted : Account → Bool) :
    CountsRight (@Bounded Account Cluster Call _ lost deleted) where
  covered {log key counter count} bounded covered alive := by
    have before := bounded alive
    have tallied := congrArg Counter.sent (tally_covered covered log)
    cases verdict : count.verdict with
    | accepted =>
      rw [verdict] at tallied
      calc acceptedIn (count :: log) key = acceptedIn log key + 1 := tallied
        _ ≤ counter.sent + lost key + 1 := Nat.succ_le_succ before
        _ = (counter.count .accepted).sent + lost key := by simp only [Counter.count]; omega
    | daily =>
      rw [verdict] at tallied
      exact (le_of_eq tallied).trans before
    | monthly =>
      rw [verdict] at tallied
      exact (le_of_eq tallied).trans before
  other {log key counter count} bounded other alive :=
    (le_of_eq (congrArg Counter.sent (tally_other other log))).trans (bounded alive)

/-- **Counters, seeds and rows bound the log**, up to what was lost. -/
def BoundsLog (s : State Account Cluster Call) : Prop := Tracks (Bounded s.lost s.deleted) s

theorem boundsLog_drop {s : State Account Cluster Call} {key : Key Account} {counter : Counter}
    (bounds : BoundsLog s) (present : s.redis.counters key = some counter)
    (free : ∀ call recipient counter, s.calls call = some recipient →
      ¬ HoldsSeed recipient key counter) :
    BoundsLog { s with
      redis := { s.redis with counters := Function.update s.redis.counters key none }
      lost := Function.update s.lost key (s.lost key + (counter.sent - (s.stored key).sent)) } := by
  have more : ∀ other, s.lost other ≤ Function.update s.lost key
      (s.lost key + (counter.sent - (s.stored key).sent)) other := by
    intro other
    by_cases same : other = key
    · subst same
      rw [Function.update_self]
      exact Nat.le_add_right _ _
    · rw [Function.update_of_ne same]
  refine ⟨?_, ?_, ?_⟩
  · intro other found there alive
    obtain ⟨-, there⟩ := update_none_eq_some there
    exact (bounds.present there alive).trans (Nat.add_le_add_left (more other) _)
  · intro other absent alive
    by_cases same : other = key
    · subst same
      -- What the row does not hold of the counter is what the drop adds to `lost`.
      have before := bounds.present present alive
      simp only [Function.update_self]
      show acceptedIn s.log other ≤ (s.stored other).sent + _
      omega
    · simp only [Function.update_of_ne same] at absent
      exact (bounds.absent absent alive).trans (Nat.add_le_add_left (more other) _)
  · intro call recipient other seed holding held absent alive
    by_cases same : other = key
    · subst same
      exact absurd held (free call recipient seed holding)
    · simp only [Function.update_of_ne same] at absent
      exact (bounds.seeds holding held absent alive).trans (Nat.add_le_add_left (more other) _)

theorem boundsLog_step {s s' : State Account Cluster Call} {action : Action Account Cluster Call}
    (bounds : BoundsLog s) (steps : Steps s action s') (allowed : lossBetweenSeeds s action) :
    BoundsLog s' := by
  cases steps with
  | advance taken =>
    have tracks := Tracks.advance (bounded_countsRight s.lost s.deleted) bounds taken
    obtain ⟨recipient, -, ⟨phase, -, rfl⟩ | ⟨limits, day, month, seed, dayCounter, monthCounter, -,
      -, -, rfl⟩⟩ := advance_cases taken
    · exact tracks
    · exact tracks
  | start call cluster account fresh => exact Tracks.started bounds
  | flush =>
    have frame := flushStep_frame s
    unfold BoundsLog
    rw [frame.lost, frame.deleted]
    refine Tracks.frame bounds frame.counters frame.log frame.calls ?_
    intro key absent bounded alive
    refine (bounded alive).trans (Nat.add_le_add_right ?_ _)
    rcases flushStep_usage s with same | ⟨written, -, stored⟩
    · rw [State.stored, State.stored, same]
    · rw [State.stored, State.stored, stored]
      exact (upsertAll_le written s.usage key).1
  | drop key counter present => exact boundsLog_drop bounds present allowed
  | deleteAccount account =>
    have alive_of : ∀ {other}, Function.update s.deleted account true other = false →
        other ≠ account ∧ s.deleted other = false := by
      intro other alive
      by_cases same : other = account
      · subst same
        rw [Function.update_self] at alive
        cases alive
      · rw [Function.update_of_ne same] at alive
        exact ⟨same, alive⟩
    refine ⟨?_, ?_, ?_⟩
    · intro key counter present alive
      exact bounds.present present (alive_of alive).2
    · intro key absent alive
      have before := bounds.absent absent (alive_of alive).2
      simp only [State.stored, storedIn, if_neg (alive_of alive).1] at before ⊢
      exact before
    · intro call recipient key counter holding held absent alive
      exact bounds.seeds holding held absent (alive_of alive).2
  | tick seconds => exact Tracks.frame bounds rfl rfl rfl fun _ bounded => bounded
  | flushFails => exact Tracks.frame bounds rfl rfl rfl fun _ bounded => bounded
  | saveAccount account limits => exact Tracks.frame bounds rfl rfl rfl fun _ bounded => bounded
  | clearLimits account => exact Tracks.frame bounds rfl rfl rfl fun _ bounded => bounded

/-- The accepted recipients of a period exceed a bound on the limits by what was lost, at most. -/
def WithinLost (s : State Account Cluster Call) : Prop :=
  ∀ (key : Key Account) (bound : ℕ), s.deleted key.1 = false →
    (∀ count ∈ s.log, count.covers key = true → limitOf count.limits key.2 ≤ bound) →
    acceptedIn s.log key ≤ bound + s.lost key

theorem withinLost_counted {s : State Account Cluster Call} {call : Call}
    {recipient : Recipient Account Cluster} {limits : Limits Cluster} {day month : ℕ}
    {seed : Option Seed} {dayCounter monthCounter : Counter} (within : WithinLost s)
    (bounds : BoundsLog s) (here : s.calls call = some recipient)
    (asks : Asks recipient.phase limits day month seed)
    (foundDay : seedCounters s.redis.counters recipient.account day month seed
      (recipient.account, .day day) = some dayCounter)
    (foundMonth : seedCounters s.redis.counters recipient.account day month seed
      (recipient.account, .month month) = some monthCounter) :
    WithinLost (s.counted call recipient limits day month seed dayCounter monthCounter) := by
  intro key bound alive limited
  have before : acceptedIn s.log key ≤ bound + s.lost key :=
    within key bound alive fun count member => limited count (List.mem_cons_of_mem _ member)
  simp only [State.counted] at limited ⊢
  by_cases covered : (Count.mk call recipient.account day month limits
      (verdictOf limits dayCounter monthCounter)).covers key = true
  · have tallied := congrArg Counter.sent (tally_covered covered s.log)
    have limit := limited _ List.mem_cons_self covered
    have counted : key = (recipient.account, .day day) ∨ key = (recipient.account, .month month) :=
      covers_iff.mp covered
    cases verdict : verdictOf limits dayCounter monthCounter with
    | accepted =>
      simp only [verdict, tally, Counter.count] at tallied
      have room := verdictOf_accepted.mp verdict
      show acceptedIn _ key ≤ bound + s.lost key
      rw [tallied]
      rcases counted with rfl | rfl
      · have bounded := bounds.found_day here asks foundDay alive
        simp only [limitOf] at limit
        omega
      · have bounded := bounds.found_month here asks foundMonth alive
        simp only [limitOf] at limit
        omega
    | daily =>
      rw [verdict] at tallied
      exact (le_of_eq tallied).trans before
    | monthly =>
      rw [verdict] at tallied
      exact (le_of_eq tallied).trans before
  · exact (le_of_eq (congrArg Counter.sent (tally_other covered s.log))).trans before

theorem withinLost_step {s s' : State Account Cluster Call} {action : Action Account Cluster Call}
    (within : WithinLost s) (bounds : BoundsLog s) (steps : Steps s action s') : WithinLost s' := by
  cases steps with
  | advance taken =>
    obtain ⟨recipient, here, ⟨phase, moves, rfl⟩ | ⟨limits, day, month, seed, dayCounter,
      monthCounter, asks, foundDay, foundMonth, rfl⟩⟩ := advance_cases taken
    · exact within
    · exact withinLost_counted within bounds here asks foundDay foundMonth
  | flush =>
    have frame := flushStep_frame s
    unfold WithinLost
    rw [frame.log, frame.lost, frame.deleted]
    exact within
  | drop key counter present =>
    intro other bound alive limited
    refine (within other bound alive limited).trans (Nat.add_le_add_left ?_ _)
    by_cases same : other = key
    · subst same
      simp only [Function.update_self]
      exact Nat.le_add_right _ _
    · simp only [Function.update_of_ne same]
      exact le_rfl
  | deleteAccount account =>
    intro key bound alive limited
    refine within key bound ?_ limited
    by_cases same : key.1 = account
    · simp only [same, Function.update_self] at alive
      cases alive
    · simp only [Function.update_of_ne same] at alive
      exact alive
  | tick seconds => exact within
  | start call cluster account fresh => exact within
  | flushFails => exact within
  | saveAccount account limits => exact within
  | clearLimits account => exact within

/-- **With losses between seeds, every state is within the limits and what was lost.** -/
theorem bounded_reached {now : ℕ} {mailAccounts : Account → Option (Limits Cluster)}
    {s : State Account Cluster Call}
    (reached : Reaches step lossBetweenSeeds (State.initial now mailAccounts) s) :
    BoundsLog s ∧ WithinLost s := by
  refine reached.invariant (fun s => BoundsLog s ∧ WithinLost s) ?_ ?_
  · exact ⟨Tracks.initial fun _ _ => Nat.zero_le _, fun _ _ _ _ => Nat.zero_le _⟩
  · rintro here there action ⟨bounds, within⟩ allowed taken
    have steps := steps_of_step taken
    exact ⟨boundsLog_step bounds steps allowed, withinLost_step within bounds steps⟩

/-! ## The calls of a cluster's own accounts -/

/-- The limits of an account of `home` name its cluster. -/
def AtHome (home : Account → Option Cluster) (account : Account) (limits : Limits Cluster) : Prop :=
  ∀ cluster, home account = some cluster → limits.cluster = some cluster

theorem atHome_step {home : Account → Option Cluster} {s s' : State Account Cluster Call}
    {action : Action Account Cluster Call} (holds : HoldsLimits (AtHome home) s)
    (steps : Steps s action s') (allowed : staysHome home s action) :
    HoldsLimits (AtHome home) s' := by
  refine holds.step steps ?_
  cases steps with
  | advance taken =>
    obtain ⟨recipient, -, ⟨phase, -, rfl⟩ | ⟨limits, day, month, seed, dayCounter, monthCounter, -,
      -, -, rfl⟩⟩ := advance_cases taken
    · exact holds.stored
    · exact holds.stored
  | flush => rw [(flushStep_frame s).mailAccounts]; exact holds.stored
  | saveAccount account limits =>
    intro other
    by_cases same : other = account
    · subst same
      simp only [Function.update_self]
      exact allowed
    · simp only [Function.update_of_ne same]
      exact holds.stored other
  | deleteAccount account =>
    intro other
    by_cases same : other = account
    · subst same
      intro cluster own
      cases (show home other = none from allowed).symm.trans own
    · simp only [Function.update_of_ne same]
      exact holds.stored other
  | tick seconds => exact holds.stored
  | start call cluster account fresh => exact holds.stored
  | flushFails => exact holds.stored
  | clearLimits account => exact holds.stored
  | drop key counter present => exact holds.stored

/-- **A call is counted exactly once**: it has returned after counting and its one entry says so, or
it has none, and a next request. -/
def CountedOnce (s : State Account Cluster Call) (call : Call)
    (recipient : Recipient Account Cluster) : Prop :=
  (∃ limits day month verdict, recipient.phase = .counted limits day month verdict ∧
      month = monthIndex day ∧
      s.log.filter (fun count => decide (count.call = call))
        = [⟨call, recipient.account, day, month, limits, verdict⟩]) ∨
    (s.log.filter (fun count => decide (count.call = call)) = [] ∧
      ∃ s' phase, advance s call = some s' ∧
        s'.calls call = some { recipient with phase := phase } ∧
        phase.requests < recipient.phase.requests)

theorem countedOnce_of {s : State Account Cluster Call} {home : Account → Option Cluster}
    {call : Call} {recipient : Recipient Account Cluster} (matched : LogMatches s)
    (sound : CallsSound s) (holds : HoldsLimits (AtHome home) s)
    (here : s.calls call = some recipient) (own : home recipient.account = some recipient.cluster) :
    CountedOnce s call recipient := by
  have entries := matched call
  rw [here] at entries
  by_cases unfinished : 0 < recipient.phase.requests
  · refine Or.inr ⟨?_, call_progress here unfinished⟩
    rw [entries]
    obtain ⟨cluster, account, phase⟩ := recipient
    cases phase with
    | counted limits day month verdict => exact absurd unfinished (Nat.lt_irrefl 0)
    | _ => rfl
  · have isSound := sound call recipient here
    have homely : ∀ limits, recipient.phase.limits = some limits →
        AtHome home recipient.account limits := fun _ => holds.carried here
    obtain ⟨cluster, account, phase⟩ := recipient
    cases phase with
    | counted limits day month verdict =>
      exact Or.inl ⟨limits, day, month, verdict, rfl, isSound.sameDay, entries⟩
    | ignored limits => exact absurd (homely limits rfl cluster own) isSound
    | _ => exact absurd (Nat.succ_pos _) unfinished

/-! ## The limits hold -/

/-- **Sending limits hold under any interleaving.** As long as Redis loses no counter: every call for
an account of the calling cluster is counted exactly once; each counter holds the steps that counted
in it, no more and no fewer; a recipient is accepted exactly when both counts before it leave room
under the limits the call carries; and so limits of at most `bound` keep the accepted recipients of a
period at most `bound`. When Redis drops counters between the calls' seeds, they exceed it by no more
than was lost. -/
theorem countRecipient_limits_hold (home : Account → Option Cluster) (now : ℕ)
    (mailAccounts : Account → Option (Limits Cluster))
    (placed : ∀ account, AtHome home account ((mailAccounts account).getD Limits.unknown)) :
    (∀ s : State Account Cluster Call,
      Reaches step (fun s action => noLoss s action ∧ staysHome home s action)
        (State.initial now mailAccounts) s →
      (∀ call recipient, s.calls call = some recipient →
        home recipient.account = some recipient.cluster → CountedOnce s call recipient) ∧
      (∀ key, (s.redis.counters key).getD ⟨0, 0⟩ = tally s.log key) ∧
      (∀ later count earlier, s.log = later ++ count :: earlier →
        (count.verdict = .accepted ↔
          acceptedIn earlier (count.account, .day count.day) + 1 ≤ count.limits.daily ∧
            acceptedIn earlier (count.account, .month count.month) + 1 ≤ count.limits.monthly)) ∧
      ∀ key bound,
        (∀ count ∈ s.log, count.covers key = true → limitOf count.limits key.2 ≤ bound) →
        acceptedIn s.log key ≤ bound) ∧
    ∀ s : State Account Cluster Call,
      Reaches step lossBetweenSeeds (State.initial now mailAccounts) s → WithinLost s := by
  refine ⟨?_, fun s reached => (bounded_reached reached).2⟩
  intro s reached
  obtain ⟨tracks, unstored, decided⟩ := exact_reached (reached.mono fun _ _ both => both.1)
  have calls : LogMatches s ∧ CallsSound s ∧ HoldsLimits (AtHome home) s := by
    refine reached.invariant
      (fun s => LogMatches s ∧ CallsSound s ∧ HoldsLimits (AtHome home) s) ?_ ?_
    · refine ⟨fun _ => rfl, ?_, HoldsLimits.initial placed⟩
      intro call recipient here
      cases here
    · rintro here there action ⟨matched, sound, holds⟩ allowed taken
      have steps := steps_of_step taken
      exact ⟨logMatches_step matched taken, callsSound_step sound steps,
        atHome_step holds steps allowed.2⟩
  obtain ⟨matched, sound, holds⟩ := calls
  refine ⟨?_, ?_, ?_, ?_⟩
  · intro call recipient here own
    exact countedOnce_of matched sound holds here own
  · intro key
    cases present : s.redis.counters key with
    | some counter => exact tracks.present present
    | none =>
      have stored := tracks.absent present
      rw [State.stored, storedIn, unstored.usage present] at stored
      exact stored
  · intro later count earlier split
    rw [split] at decided
    rw [decided.at]
    exact verdictOf_accepted
  · intro key bound limited
    exact decided.acceptedIn_le limited

/-- Two calls of one account that are both told to seed, and both read the empty usage before either
counts. -/
def bothSeed : List (Action ℕ ℕ ℕ) :=
  [.start 0 7 3, .start 1 7 3, .advance 0, .advance 0, .advance 0, .advance 0, .advance 1,
    .advance 1, .advance 0, .advance 1, .advance 0, .advance 1, .advance 0, .advance 1]

/-- With room for one recipient a day, one of the two is accepted and the other refused. -/
theorem limits_hold_bothSeed :
    ∃ s : State ℕ ℕ ℕ, run step (State.initial 0 fun _ => some ⟨some 7, 1, 5⟩) bothSeed = some s ∧
      s.redis.counters (3, .day 0) = some ⟨1, 1⟩ ∧ acceptedIn s.log (3, .day 0) ≤ 1 ∧
      ∀ call recipient, s.calls call = some recipient → recipient.cluster = 7 →
        CountedOnce s call recipient := by
  have seen : (run step (State.initial 0 fun _ => some ⟨some 7, 1, 5⟩) bothSeed).map
      (fun s => (s.redis.counters (3, .day 0), s.log.map fun count => count.limits.daily))
      = some (some ⟨1, 1⟩, [1, 1]) := by decide
  obtain ⟨s, ends, seen⟩ := Option.map_eq_some_iff.mp seen
  obtain ⟨counter, limits⟩ := Prod.mk.inj seen
  have reached : Reaches step (fun s action => noLoss s action ∧ staysHome (fun _ => some 7) s action)
      (State.initial 0 fun _ => some ⟨some 7, 1, 5⟩) s :=
    reaches_of_run (runMeets_of_forall (by simp [bothSeed, noLoss, staysHome])) ends
  obtain ⟨once, -, -, within⟩ := (countRecipient_limits_hold (fun _ : ℕ => some 7) 0
    (fun _ => some ⟨some 7, 1, 5⟩) (fun _ _ own => own)).1 s reached
  refine ⟨s, ends, counter, within (3, .day 0) 1 ?_, ?_⟩
  · intro count member _
    have daily : count.limits.daily ∈ [1, 1] := limits ▸ List.mem_map_of_mem member
    simp only [List.mem_cons, List.not_mem_nil, or_false, or_self] at daily
    exact le_of_eq daily
  · intro call recipient here own
    exact once call recipient here (congrArg some own.symm)

end SuiteCloud.Mail.SendingLimits
