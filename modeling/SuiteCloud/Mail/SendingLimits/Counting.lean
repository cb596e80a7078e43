/-
**Sending limits: the log of counting steps, and the counters that follow it.**

What holds of the calls, of the counters and of the seeds in flight along every run, whatever reading
of *right* a statement needs.

* `LogMatches` — a call that returned after counting has exactly one entry in the log, any other call
  none.
* `call_progress` and `CallsSound` — a call that has not returned can go on and has fewer requests
  left each time; its periods are one day and that day's month, begun; it returns uncounted only with
  limits of another cluster.
* `HoldsLimits` — the limits that are stored, cached or carried by a call all have a property, as long
  as the stored ones do.
* `Tracks` — **the counters follow the log.** What a counter holds, and where there is none what a
  call holds as its seed and what the stored row holds, are all right for the log. `Tracks.advance`
  shows that a call's request keeps this, for every reading of right that counting keeps
  (`CountsRight`).
-/

import Mathlib.Data.List.Basic
import SuiteCloud.Mail.SendingLimits.Steps

set_option linter.unusedSectionVars false

namespace SuiteCloud.Mail.SendingLimits

open SuiteCloud.Library

variable {Account Cluster Call : Type}
variable [DecidableEq Account] [DecidableEq Cluster] [DecidableEq Call]

/-! ## The runs -/

/-- Redis loses no counter. -/
def noLoss (_ : State Account Cluster Call) : Action Account Cluster Call → Prop
  | .drop _ => False
  | _ => True

/-! ## The tally of the log -/

/-- The step counted the key's account, in the key's day or month. -/
def Count.covers (count : Count Account Cluster Call) (key : Key Account) : Bool :=
  decide (count.account = key.1 ∧ (key.2 = .day count.day ∨ key.2 = .month count.month))

/-- The recipients accepted in a period. -/
def acceptedIn (log : List (Count Account Cluster Call)) (key : Key Account) : ℕ :=
  log.countP fun count => count.covers key && decide (count.verdict = .accepted)

/-- The recipients refused in a period. -/
def refusedIn (log : List (Count Account Cluster Call)) (key : Key Account) : ℕ :=
  log.countP fun count => count.covers key && !decide (count.verdict = .accepted)

/-- What a counter holds that counted every step of the log once. -/
def tally (log : List (Count Account Cluster Call)) (key : Key Account) : Counter :=
  ⟨acceptedIn log key, refusedIn log key⟩

theorem tally_covered {count : Count Account Cluster Call} {key : Key Account}
    (covered : count.covers key = true) (log : List (Count Account Cluster Call)) :
    tally (count :: log) key = (tally log key).count count.verdict := by
  unfold tally acceptedIn refusedIn
  rw [List.countP_cons, List.countP_cons, covered]
  cases count.verdict <;> rfl

theorem tally_other {count : Count Account Cluster Call} {key : Key Account}
    (other : ¬ count.covers key = true) (log : List (Count Account Cluster Call)) :
    tally (count :: log) key = tally log key := by
  have off : count.covers key = false := by simpa using other
  unfold tally acceptedIn refusedIn
  rw [List.countP_cons, List.countP_cons, off]
  rfl

/-! ## One entry per counted call -/

/-- The log entry of a call that returned after counting. -/
def entryOf (call : Call) : Option (Recipient Account Cluster) → List (Count Account Cluster Call)
  | some ⟨_, account, .counted limits day month verdict⟩ =>
      [⟨call, account, day, month, limits, verdict⟩]
  | _ => []

/-- **Each call's entries are the one of its counting step**, and none before it. -/
def LogMatches (s : State Account Cluster Call) : Prop :=
  ∀ call, s.log.filter (fun count => decide (count.call = call)) = entryOf call (s.calls call)

theorem entryOf_moved {s : State Account Cluster Call} {recipient : Recipient Account Cluster}
    {phase : Phase Cluster} (call : Call) (moves : Moves s recipient recipient.phase phase) :
    entryOf call (some recipient) = [] ∧
      entryOf call (some { recipient with phase := phase }) = [] := by
  obtain ⟨cluster, account, before⟩ := recipient
  cases moves <;> exact ⟨rfl, rfl⟩

theorem entryOf_asks {recipient : Recipient Account Cluster} {limits : Limits Cluster}
    {day month : ℕ} {seed : Option Seed} (call : Call)
    (asks : Asks recipient.phase limits day month seed) : entryOf call (some recipient) = [] := by
  obtain ⟨cluster, account, before⟩ := recipient
  cases asks <;> rfl

theorem logMatches_advance {s s' : State Account Cluster Call} {call : Call}
    (matched : LogMatches s) (taken : advance s call = some s') : LogMatches s' := by
  obtain ⟨recipient, here, ⟨phase, moves, rfl⟩ | ⟨limits, day, month, seed, dayCounter,
    monthCounter, asks, -, -, rfl⟩⟩ := advance_cases taken
  · intro other
    by_cases same : other = call
    · subst same
      have before := matched other
      rw [here, (entryOf_moved other moves).1] at before
      simp only [State.setPhase, Function.update_self]
      rw [before, (entryOf_moved other moves).2]
    · simp only [State.setPhase, Function.update_of_ne same]
      exact matched other
  · intro other
    by_cases same : other = call
    · subst same
      have before := matched other
      rw [here, entryOf_asks other asks] at before
      simp only [State.counted, State.setPhase, Function.update_self]
      rw [List.filter_cons_of_pos (by simp), before]
      rfl
    · simp only [State.counted, State.setPhase, Function.update_of_ne same]
      rw [List.filter_cons_of_neg (by simpa using fun equal => same equal.symm)]
      exact matched other

theorem logMatches_step {s s' : State Account Cluster Call} {action : Action Account Cluster Call}
    (matched : LogMatches s) (taken : step s action = some s') : LogMatches s' := by
  cases steps_of_step taken with
  | advance taken => exact logMatches_advance matched taken
  | start call cluster account here =>
    intro other
    by_cases same : other = call
    · subst same
      have before := matched other
      rw [here] at before
      simp only [Function.update_self]
      exact before
    · simp only [Function.update_of_ne same]
      exact matched other
  | flush =>
    intro other
    rw [(flushStep_frame s).log, (flushStep_frame s).calls]
    exact matched other
  | flushFails => exact matched
  | drop key counter present => exact matched
  | tick seconds => exact matched
  | saveAccount account limits => exact matched
  | clearLimits account => exact matched
  | deleteAccount account => exact matched

/-! ## Where a call stands -/

/-- The requests a call has left, at most. -/
def Phase.requests : Phase Cluster → ℕ
  | .readCache => 7
  | .readAccount => 6
  | .writeCache _ => 5
  | .compare _ => 4
  | .runCheck _ _ _ => 3
  | .readSeed _ _ _ => 2
  | .runSeeded _ _ _ _ => 1
  | .ignored _ => 0
  | .counted _ _ _ _ => 0

theorem Moves.requests_lt {s : State Account Cluster Call} {recipient : Recipient Account Cluster}
    {before after : Phase Cluster} (moves : Moves s recipient before after) :
    after.requests < before.requests := by
  cases moves <;> simp only [Phase.requests] <;> decide

/-- **A call that has not returned can make its next request**, and has fewer left after it. -/
theorem call_progress {s : State Account Cluster Call} {call : Call}
    {recipient : Recipient Account Cluster} (here : s.calls call = some recipient)
    (unfinished : 0 < recipient.phase.requests) :
    ∃ s' phase, advance s call = some s' ∧
      s'.calls call = some { recipient with phase := phase } ∧
      phase.requests < recipient.phase.requests := by
  have goes : ∃ s', advance s call = some s' := by
    unfold advance
    rw [here]
    obtain ⟨cluster, account, phase⟩ := recipient
    cases phase with
    | readCache => simp only; split <;> exact ⟨_, rfl⟩
    | compare limits => simp only; split <;> exact ⟨_, rfl⟩
    | ignored limits => exact absurd unfinished (Nat.lt_irrefl 0)
    | counted limits day month verdict => exact absurd unfinished (Nat.lt_irrefl 0)
    | _ => exact ⟨_, rfl⟩
  obtain ⟨s', taken⟩ := goes
  obtain ⟨mover, there, ⟨phase, moves, rfl⟩ | ⟨limits, day, month, seed, dayCounter, monthCounter,
    asks, -, -, rfl⟩⟩ := advance_cases taken
  · obtain rfl := Option.some.inj (there.symm.trans here)
    exact ⟨_, phase, taken, by simp only [State.setPhase, Function.update_self], moves.requests_lt⟩
  · obtain rfl := Option.some.inj (there.symm.trans here)
    refine ⟨_, .counted limits day month (verdictOf limits dayCounter monthCounter), taken, ?_,
      unfinished⟩
    simp only [State.counted, State.setPhase, Function.update_self]

/-- Past the cluster check: the limits are of the call's cluster, and its periods have begun. -/
structure Admitted (now : ℕ) (recipient : Recipient Account Cluster) (limits : Limits Cluster)
    (day month : ℕ) : Prop where
  own : limits.cluster = some recipient.cluster
  begun : day ≤ dayIndex now
  sameDay : month = monthIndex day

/-- What a call's phase says of its cluster check and of its periods. -/
def Sound (now : ℕ) (recipient : Recipient Account Cluster) : Prop :=
  match recipient.phase with
  | .runCheck limits day month => Admitted now recipient limits day month
  | .readSeed limits day month => Admitted now recipient limits day month
  | .runSeeded limits day month _ => Admitted now recipient limits day month
  | .counted limits day month _ => Admitted now recipient limits day month
  | .ignored limits => limits.cluster ≠ some recipient.cluster
  | _ => True

theorem Sound.later {now later : ℕ} {recipient : Recipient Account Cluster} (le : now ≤ later)
    (sound : Sound now recipient) : Sound later recipient := by
  obtain ⟨cluster, account, phase⟩ := recipient
  have days := dayIndex_mono le
  cases phase with
  | runCheck limits day month => exact ⟨sound.own, sound.begun.trans days, sound.sameDay⟩
  | readSeed limits day month => exact ⟨sound.own, sound.begun.trans days, sound.sameDay⟩
  | runSeeded limits day month seed => exact ⟨sound.own, sound.begun.trans days, sound.sameDay⟩
  | counted limits day month verdict => exact ⟨sound.own, sound.begun.trans days, sound.sameDay⟩
  | _ => exact sound

theorem Sound.moved {s : State Account Cluster Call} {recipient : Recipient Account Cluster}
    {phase : Phase Cluster} (sound : Sound s.now recipient)
    (moves : Moves s recipient recipient.phase phase) :
    Sound s.now { recipient with phase := phase } := by
  obtain ⟨cluster, account, before⟩ := recipient
  cases moves with
  | enter limits own => exact ⟨own, le_rfl, rfl⟩
  | ignore limits other => exact other
  | hit => trivial
  | miss => trivial
  | read => trivial
  | cached => trivial
  | missing => exact ⟨sound.own, sound.begun, sound.sameDay⟩
  | seed => exact ⟨sound.own, sound.begun, sound.sameDay⟩

theorem Sound.asks {now : ℕ} {recipient : Recipient Account Cluster} {limits : Limits Cluster}
    {day month : ℕ} {seed : Option Seed} (sound : Sound now recipient)
    (asks : Asks recipient.phase limits day month seed) :
    Admitted now recipient limits day month := by
  obtain ⟨cluster, account, phase⟩ := recipient
  cases asks with
  | unseeded => exact sound
  | seeded => exact sound

/-- Every call is sound. -/
def CallsSound (s : State Account Cluster Call) : Prop :=
  ∀ call recipient, s.calls call = some recipient → Sound s.now recipient

theorem callsSound_step {s s' : State Account Cluster Call} {action : Action Account Cluster Call}
    (sound : CallsSound s) (steps : Steps s action s') : CallsSound s' := by
  cases steps with
  | advance taken =>
    obtain ⟨recipient, here, ⟨phase, moves, rfl⟩ | ⟨limits, day, month, seed, dayCounter,
      monthCounter, asks, -, -, rfl⟩⟩ := advance_cases taken
    · intro other holder holding
      rcases update_eq_some holding with ⟨rfl, rfl⟩ | ⟨-, holding⟩
      · exact (sound _ recipient here).moved moves
      · exact sound other holder holding
    · intro other holder holding
      rcases update_eq_some holding with ⟨rfl, rfl⟩ | ⟨-, holding⟩
      · have admitted := (sound _ recipient here).asks asks
        exact ⟨admitted.own, admitted.begun, admitted.sameDay⟩
      · exact sound other holder holding
  | start call cluster account fresh =>
    intro other holder holding
    rcases update_eq_some holding with ⟨rfl, rfl⟩ | ⟨-, holding⟩
    · trivial
    · exact sound other holder holding
  | flush =>
    intro other holder holding
    rw [(flushStep_frame s).calls] at holding
    rw [(flushStep_frame s).now]
    exact sound other holder holding
  | tick seconds =>
    exact fun other holder holding => (sound other holder holding).later (Nat.le_add_right _ _)
  | flushFails => exact sound
  | saveAccount account limits => exact sound
  | clearLimits account => exact sound
  | deleteAccount account => exact sound
  | drop key counter present => exact sound

/-! ## The limits in use -/

/-- The limits a call carries. -/
def Phase.limits : Phase Cluster → Option (Limits Cluster)
  | .readCache => none
  | .readAccount => none
  | .writeCache limits => some limits
  | .compare limits => some limits
  | .runCheck limits _ _ => some limits
  | .readSeed limits _ _ => some limits
  | .runSeeded limits _ _ _ => some limits
  | .ignored limits => some limits
  | .counted limits _ _ _ => some limits

/-- **Stored, cached and carried limits** all have a property. -/
structure HoldsLimits (Good : Account → Limits Cluster → Prop) (s : State Account Cluster Call) :
    Prop where
  stored : ∀ account, Good account ((s.mailAccounts account).getD Limits.unknown)
  cached : ∀ {account limits}, s.redis.limits account = some limits → Good account limits
  carried : ∀ {call recipient limits}, s.calls call = some recipient →
    recipient.phase.limits = some limits → Good recipient.account limits

section Limits

variable {Good : Account → Limits Cluster → Prop} {s s' : State Account Cluster Call}

/-- A move carries on the limits of the call, or takes the cached or the stored ones. -/
theorem HoldsLimits.moved (holds : HoldsLimits Good s) {call : Call}
    {recipient : Recipient Account Cluster} {phase : Phase Cluster} {limits : Limits Cluster}
    (here : s.calls call = some recipient) (moves : Moves s recipient recipient.phase phase)
    (carries : phase.limits = some limits) : Good recipient.account limits := by
  obtain ⟨cluster, account, before⟩ := recipient
  cases moves with
  | hit found cached =>
    obtain rfl := Option.some.inj carries
    exact holds.cached cached
  | miss => cases carries
  | read =>
    obtain rfl := Option.some.inj carries
    exact holds.stored account
  | cached => exact holds.carried here carries
  | enter => exact holds.carried here carries
  | ignore => exact holds.carried here carries
  | missing => exact holds.carried here carries
  | seed => exact holds.carried here carries

theorem Asks.limits_eq {phase : Phase Cluster} {limits : Limits Cluster} {day month : ℕ}
    {seed : Option Seed} (asks : Asks phase limits day month seed) :
    phase.limits = some limits := by
  cases asks <;> rfl

theorem cacheAfter_cases {recipient : Recipient Account Cluster} {account : Account}
    {limits : Limits Cluster} (found : cacheAfter s recipient account = some limits) :
    s.redis.limits account = some limits ∨
      (account = recipient.account ∧ recipient.phase = .writeCache limits) := by
  obtain ⟨cluster, holder, phase⟩ := recipient
  cases phase with
  | writeCache written =>
    rcases update_eq_some found with ⟨rfl, rfl⟩ | ⟨-, found⟩
    · exact Or.inr ⟨rfl, rfl⟩
    · exact Or.inl found
  | _ => exact Or.inl found

theorem HoldsLimits.advance (holds : HoldsLimits Good s) {call : Call}
    (taken : SendingLimits.advance s call = some s') : HoldsLimits Good s' := by
  obtain ⟨recipient, here, ⟨phase, moves, rfl⟩ | ⟨limits, day, month, seed, dayCounter,
    monthCounter, asks, -, -, rfl⟩⟩ := advance_cases taken
  · refine ⟨holds.stored, ?_, ?_⟩
    · intro account limits found
      rcases cacheAfter_cases found with found | ⟨rfl, writes⟩
      · exact holds.cached found
      · exact holds.carried here (by rw [writes]; rfl)
    · intro other holder limits holding carries
      rcases update_eq_some holding with ⟨rfl, rfl⟩ | ⟨-, holding⟩
      · have good := holds.moved here moves carries
        exact good
      · exact holds.carried holding carries
  · refine ⟨holds.stored, holds.cached, ?_⟩
    intro other holder carried holding carries
    rcases update_eq_some holding with ⟨rfl, rfl⟩ | ⟨-, holding⟩
    · obtain rfl := Option.some.inj carries
      have good := holds.carried here asks.limits_eq
      exact good
    · exact holds.carried holding carries

/-- **Every step keeps the limits good** that leaves good limits stored. -/
theorem HoldsLimits.step (holds : HoldsLimits Good s) {action : Action Account Cluster Call}
    (steps : Steps s action s')
    (stored : ∀ account, Good account ((s'.mailAccounts account).getD Limits.unknown)) :
    HoldsLimits Good s' := by
  cases steps with
  | advance taken => exact holds.advance taken
  | start call cluster account fresh =>
    refine ⟨holds.stored, holds.cached, ?_⟩
    intro other holder limits holding carries
    rcases update_eq_some holding with ⟨rfl, rfl⟩ | ⟨-, holding⟩
    · cases carries
    · exact holds.carried holding carries
  | flush =>
    refine ⟨stored, ?_, ?_⟩
    · rw [(flushStep_frame s).limits]
      exact holds.cached
    · rw [(flushStep_frame s).calls]
      exact holds.carried
  | clearLimits account =>
    refine ⟨holds.stored, ?_, holds.carried⟩
    intro other limits found
    obtain ⟨-, found⟩ := update_none_eq_some found
    exact holds.cached found
  | tick seconds => exact ⟨stored, holds.cached, holds.carried⟩
  | flushFails => exact ⟨stored, holds.cached, holds.carried⟩
  | saveAccount account limits => exact ⟨stored, holds.cached, holds.carried⟩
  | deleteAccount account => exact ⟨stored, holds.cached, holds.carried⟩
  | drop key counter present => exact ⟨stored, holds.cached, holds.carried⟩

/-- Before any call only the stored limits are there. -/
theorem HoldsLimits.initial {now : ℕ} {mailAccounts : Account → Option (Limits Cluster)}
    (stored : ∀ account, Good account ((mailAccounts account).getD Limits.unknown)) :
    HoldsLimits Good (State.initial now mailAccounts : State Account Cluster Call) := by
  refine ⟨stored, ?_, ?_⟩
  · intro account limits found
    cases found
  · intro call recipient limits here
    cases here

end Limits

/-! ## The counters follow the log -/

/-- A call holds `counter` as the seed of `key`. -/
inductive HoldsSeed (recipient : Recipient Account Cluster) : Key Account → Counter → Prop
  | day (limits : Limits Cluster) (day month : ℕ) (seed : Seed) :
      recipient.phase = .runSeeded limits day month seed →
      HoldsSeed recipient (recipient.account, .day day) seed.day
  | month (limits : Limits Cluster) (day month : ℕ) (seed : Seed) :
      recipient.phase = .runSeeded limits day month seed →
      HoldsSeed recipient (recipient.account, .month month) seed.month

/-- **Counters, seeds and stored rows are right for the log**: where a counter exists it is, and where
none does, whatever it would be created from is. -/
structure Tracks (Right : List (Count Account Cluster Call) → Key Account → Counter → Prop)
    (s : State Account Cluster Call) : Prop where
  present : ∀ {key counter}, s.redis.counters key = some counter → Right s.log key counter
  absent : ∀ {key}, s.redis.counters key = none → Right s.log key (s.stored key)
  seeds : ∀ {call recipient key counter}, s.calls call = some recipient →
    HoldsSeed recipient key counter → s.redis.counters key = none → Right s.log key counter

/-- A reading of right that counting keeps. -/
structure CountsRight
    (Right : List (Count Account Cluster Call) → Key Account → Counter → Prop) : Prop where
  covered : ∀ {log key counter} {count : Count Account Cluster Call}, Right log key counter →
    count.covers key = true → Right (count :: log) key (counter.count count.verdict)
  other : ∀ {log key counter} {count : Count Account Cluster Call}, Right log key counter →
    ¬ count.covers key = true → Right (count :: log) key counter

section Tracking

variable {Right : List (Count Account Cluster Call) → Key Account → Counter → Prop}
variable {s s' : State Account Cluster Call}

theorem Tracks.found_day (tracks : Tracks Right s) {call : Call}
    {recipient : Recipient Account Cluster} {limits : Limits Cluster} {day month : ℕ}
    {seed : Option Seed} {counter : Counter} (here : s.calls call = some recipient)
    (asks : Asks recipient.phase limits day month seed)
    (found : seedCounters s.redis.counters recipient.account day month seed
      (recipient.account, .day day) = some counter) :
    Right s.log (recipient.account, .day day) counter := by
  rcases seedCounters_day found with present | ⟨absent, given, rfl, rfl⟩
  · exact tracks.present present
  · cases held : recipient.phase <;> rw [held] at asks <;> cases asks
    exact tracks.seeds here (.day _ _ _ _ held) absent

theorem Tracks.found_month (tracks : Tracks Right s) {call : Call}
    {recipient : Recipient Account Cluster} {limits : Limits Cluster} {day month : ℕ}
    {seed : Option Seed} {counter : Counter} (here : s.calls call = some recipient)
    (asks : Asks recipient.phase limits day month seed)
    (found : seedCounters s.redis.counters recipient.account day month seed
      (recipient.account, .month month) = some counter) :
    Right s.log (recipient.account, .month month) counter := by
  rcases seedCounters_month found with present | ⟨absent, given, rfl, rfl⟩
  · exact tracks.present present
  · cases held : recipient.phase <;> rw [held] at asks <;> cases asks
    exact tracks.seeds here (.month _ _ _ _ held) absent

/-- A move keeps every counter, and hands out the stored row as a seed. -/
theorem Tracks.moved (tracks : Tracks Right s) {call : Call}
    {recipient : Recipient Account Cluster} {phase : Phase Cluster}
    {cache : Account → Option (Limits Cluster)}
    (moves : Moves s recipient recipient.phase phase) :
    Tracks Right { s.setPhase call recipient phase with
      redis := { s.redis with limits := cache } } := by
  obtain ⟨cluster, account, before⟩ := recipient
  refine ⟨tracks.present, tracks.absent, ?_⟩
  intro other holder key counter holding held absent
  rcases update_eq_some holding with ⟨rfl, rfl⟩ | ⟨-, holding⟩
  · -- Only the read of the seed leads to a phase that holds one.
    cases held with
    | day limits day month seed phaseEq =>
      simp only at phaseEq
      subst phaseEq
      cases moves
      exact tracks.absent absent
    | month limits day month seed phaseEq =>
      simp only at phaseEq
      subst phaseEq
      cases moves
      exact tracks.absent absent
  · exact tracks.seeds holding held absent

theorem absent_of_counted {call : Call} {recipient : Recipient Account Cluster}
    {limits : Limits Cluster} {day month : ℕ} {seed : Option Seed}
    {dayCounter monthCounter : Counter} {key : Key Account}
    (absent : (s.counted call recipient limits day month seed dayCounter monthCounter).redis.counters
      key = none) :
    key ≠ (recipient.account, .day day) ∧ key ≠ (recipient.account, .month month) ∧
      s.redis.counters key = none := by
  simp only [State.counted] at absent
  have notMonth : key ≠ (recipient.account, .month month) := by
    rintro rfl
    rw [countInto_month] at absent
    cases absent
  have notDay : key ≠ (recipient.account, .day day) := by
    rintro rfl
    rw [countInto_day] at absent
    cases absent
  rw [countInto_other _ _ _ _ notDay notMonth, seedCounters_other _ _ notDay notMonth] at absent
  exact ⟨notDay, notMonth, absent⟩

theorem covers_iff {count : Count Account Cluster Call} {key : Key Account} :
    count.covers key = true ↔
      key = (count.account, .day count.day) ∨ key = (count.account, .month count.month) := by
  obtain ⟨account, period⟩ := key
  simp only [Count.covers, decide_eq_true_eq, Prod.mk.injEq]
  constructor
  · rintro ⟨rfl, rfl | rfl⟩
    · exact Or.inl ⟨rfl, rfl⟩
    · exact Or.inr ⟨rfl, rfl⟩
  · rintro (⟨rfl, rfl⟩ | ⟨rfl, rfl⟩)
    · exact ⟨rfl, Or.inl rfl⟩
    · exact ⟨rfl, Or.inr rfl⟩

theorem Tracks.advance (rule : CountsRight Right) (tracks : Tracks Right s) {call : Call}
    (taken : SendingLimits.advance s call = some s') : Tracks Right s' := by
  obtain ⟨recipient, here, ⟨phase, moves, rfl⟩ | ⟨limits, day, month, seed, dayCounter,
    monthCounter, asks, foundDay, foundMonth, rfl⟩⟩ := advance_cases taken
  · exact tracks.moved moves
  · have uncovered : ∀ {key : Key Account}, key ≠ (recipient.account, .day day) →
        key ≠ (recipient.account, .month month) →
        ¬ (Count.mk call recipient.account day month limits
          (verdictOf limits dayCounter monthCounter)).covers key = true := by
      intro key notDay notMonth covered
      rcases covers_iff.mp covered with rfl | rfl
      · exact notDay rfl
      · exact notMonth rfl
    refine ⟨?_, ?_, ?_⟩
    · intro key counter present
      simp only [State.counted] at present ⊢
      by_cases isMonth : key = (recipient.account, .month month)
      · subst isMonth
        rw [countInto_month, Option.some.injEq] at present
        subst present
        exact rule.covered (tracks.found_month here asks foundMonth) (covers_iff.mpr (Or.inr rfl))
      · by_cases isDay : key = (recipient.account, .day day)
        · subst isDay
          rw [countInto_day, Option.some.injEq] at present
          subst present
          exact rule.covered (tracks.found_day here asks foundDay) (covers_iff.mpr (Or.inl rfl))
        · rw [countInto_other _ _ _ _ isDay isMonth, seedCounters_other _ _ isDay isMonth] at present
          exact rule.other (tracks.present present) (uncovered isDay isMonth)
    · intro key absent
      obtain ⟨notDay, notMonth, absentBefore⟩ := absent_of_counted absent
      exact rule.other (tracks.absent absentBefore) (uncovered notDay notMonth)
    · intro other holder key counter holding held absent
      obtain ⟨notDay, notMonth, absentBefore⟩ := absent_of_counted absent
      refine rule.other ?_ (uncovered notDay notMonth)
      rcases update_eq_some holding with ⟨rfl, rfl⟩ | ⟨-, holding⟩
      · cases held with
        | day _ _ _ _ phaseEq => cases phaseEq
        | month _ _ _ _ phaseEq => cases phaseEq
      · exact tracks.seeds holding held absentBefore

/-- A step that leaves counters, log and calls alone keeps the counters right where it keeps the
stored rows of absent counters right. -/
theorem Tracks.frame (tracks : Tracks Right s) (counters : s'.redis.counters = s.redis.counters)
    (log : s'.log = s.log) (calls : s'.calls = s.calls)
    (stored : ∀ {key}, s.redis.counters key = none → Right s.log key (s.stored key) →
      Right s.log key (s'.stored key)) : Tracks Right s' := by
  refine ⟨?_, ?_, ?_⟩
  · rw [counters, log]
    exact tracks.present
  · rw [counters, log]
    exact fun absent => stored absent (tracks.absent absent)
  · rw [counters, log, calls]
    exact tracks.seeds

/-- The start of a call keeps the counters right: it holds no seed. -/
theorem Tracks.started (tracks : Tracks Right s) {call : Call} {cluster : Cluster}
    {account : Account} :
    Tracks Right { s with
      calls := Function.update s.calls call (some ⟨cluster, account, .readCache⟩) } := by
  refine ⟨tracks.present, tracks.absent, ?_⟩
  intro other holder key counter holding held absent
  rcases update_eq_some holding with ⟨rfl, rfl⟩ | ⟨-, holding⟩
  · cases held with
    | day _ _ _ _ phaseEq => cases phaseEq
    | month _ _ _ _ phaseEq => cases phaseEq
  · exact tracks.seeds holding held absent

/-- Before any count, everything is right that is right for nothing counted. -/
theorem Tracks.initial {now : ℕ} {mailAccounts : Account → Option (Limits Cluster)}
    (zero : ∀ key, Right [] key ⟨0, 0⟩) :
    Tracks Right (State.initial now mailAccounts : State Account Cluster Call) := by
  refine ⟨?_, fun _ => zero _, ?_⟩
  · intro key counter present
    cases present
  · intro call recipient key counter here
    cases here

end Tracking

end SuiteCloud.Mail.SendingLimits
