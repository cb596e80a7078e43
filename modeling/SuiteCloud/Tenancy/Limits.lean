/-
**Tenant limits: the lock, the count and the commit.**

`SuiteTenant.lock`, `assert_within_limit` and the four `assert_can_add_…` checks
(`suite_cloud/doctype/suite_tenant/suite_tenant.py`), as the requests that create Mail Domains, Mail
Accounts, Mail Groups and Mailing Lists of one tenant call them. Each request is a transaction at
REPEATABLE READ: its plain reads open a view, `lock` waits for the tenant row, the count is one more
plain read, and the row is kept until the commit or the rollback.

* `assertWithinLimit_ok_iff` — a limit of 0 means unlimited, any other leaves room below it.
* `Serialised` — only the holder of the tenant row is past the lock, and what it inserts has room.
* `limits_never_exceeded` — **the limits hold** in every run in which no request takes the lock with a
  view that shows room where the committed documents leave none.
* `last_slot_taken_twice` — two requests that both read before the first one commits both take the
  last slot.
-/

import Mathlib.Logic.Function.Basic
import SuiteCloud.Library.Maps
import SuiteCloud.Library.ReadView
import SuiteCloud.Library.Transition

namespace SuiteCloud.Tenancy

open SuiteCloud.Library

/-! ## The checks -/

/-- The documents a tenant's plan limits. -/
inductive Kind
  | domain
  | account
  | group
  | mailingList
  deriving DecidableEq

/-- The limits of a Suite Tenant. -/
structure SuiteTenant where
  name : String
  maxDomains : ℕ
  maxAccounts : ℕ
  maxGroups : ℕ
  maxMailingLists : ℕ

/-- A limit of 0 means unlimited. -/
def assertWithinLimit (tenant : SuiteTenant) (limit current : ℕ) (what : String) :
    Except String Unit :=
  let name := tenant.name
  if limit ≠ 0 ∧ current ≥ limit then
    .error s!"Tenant {name} has reached its limit of {limit} {what}."
  else .ok ()

/-- The tenant's documents of each kind. -/
abbrev Counts := Kind → ℕ

def assertCanAddDomain (tenant : SuiteTenant) (counts : Counts) : Except String Unit :=
  assertWithinLimit tenant tenant.maxDomains (counts .domain) "domains"

def assertCanAddAccount (tenant : SuiteTenant) (counts : Counts) : Except String Unit :=
  assertWithinLimit tenant tenant.maxAccounts (counts .account) "accounts"

def assertCanAddGroup (tenant : SuiteTenant) (counts : Counts) : Except String Unit :=
  assertWithinLimit tenant tenant.maxGroups (counts .group) "groups"

def assertCanAddMailingList (tenant : SuiteTenant) (counts : Counts) : Except String Unit :=
  assertWithinLimit tenant tenant.maxMailingLists (counts .mailingList) "mailing lists"

/-- The check each kind of document makes, past the lock. -/
def assertCanAdd (tenant : SuiteTenant) : Kind → Counts → Except String Unit
  | .domain => assertCanAddDomain tenant
  | .account => assertCanAddAccount tenant
  | .group => assertCanAddGroup tenant
  | .mailingList => assertCanAddMailingList tenant

/-- The limit on a kind of document. -/
def SuiteTenant.limit (tenant : SuiteTenant) : Kind → ℕ
  | .domain => tenant.maxDomains
  | .account => tenant.maxAccounts
  | .group => tenant.maxGroups
  | .mailingList => tenant.maxMailingLists

/-- The counts leave room for one more document of the kind. -/
def HasRoom (tenant : SuiteTenant) (kind : Kind) (counts : Counts) : Prop :=
  tenant.limit kind = 0 ∨ counts kind < tenant.limit kind

instance (tenant : SuiteTenant) (kind : Kind) (counts : Counts) :
    Decidable (HasRoom tenant kind counts) :=
  inferInstanceAs (Decidable (_ ∨ _))

theorem assertWithinLimit_ok_iff {tenant : SuiteTenant} {limit current : ℕ} {what : String} :
    assertWithinLimit tenant limit current what = .ok () ↔ limit = 0 ∨ current < limit := by
  unfold assertWithinLimit
  split
  case isTrue full => exact ⟨fun absurd => (nomatch absurd), fun room => absurd full (by omega)⟩
  case isFalse room => exact ⟨fun _ => by omega, fun _ => rfl⟩

theorem assertCanAdd_ok_iff {tenant : SuiteTenant} {kind : Kind} {counts : Counts} :
    assertCanAdd tenant kind counts = .ok () ↔ HasRoom tenant kind counts := by
  cases kind <;> exact assertWithinLimit_ok_iff

/-! ## The requests -/

/-- Where a request that creates a document stands. -/
inductive Phase
  /-- Before the lock: the reads of the tenant, the domain and `lock`'s own `exists`. -/
  | reading (view : ReadView Counts)
  /-- It holds the tenant row and counts next. -/
  | locked (view : ReadView Counts)
  /-- The check passed and the row is inserted, uncommitted. -/
  | inserted
  | committed
  | refused (message : String)
  | rolledBack

structure Request where
  kind : Kind
  phase : Phase

/-- The committed documents, the holder of the tenant row, and the requests. -/
structure State (R : Type) where
  counts : Counts
  holder : Option R
  requests : R → Option Request

variable {R : Type}

def State.initial (counts : Counts) : State R := ⟨counts, none, fun _ => none⟩

inductive Action (R : Type)
  | start (request : R) (kind : Kind)
  /-- A plain read before the lock. -/
  | read (request : R)
  /-- `SELECT … FOR UPDATE` of the tenant row, once its holder is done. -/
  | lock (request : R)
  /-- The count, the check, and the insert when it passes. -/
  | check (request : R)
  | commit (request : R)
  /-- The request fails and its transaction is rolled back. -/
  | fail (request : R)
  /-- A delete of a document of the tenant commits. -/
  | delete (kind : Kind)

variable [DecidableEq R]

/-- Moves a request on. -/
def State.setPhase (s : State R) (id : R) (request : Request) (phase : Phase) : State R :=
  { s with requests := Function.update s.requests id (some { request with phase := phase }) }

/-- The end of a transaction: its row lock goes. -/
def State.release (s : State R) (id : R) : State R :=
  { s with holder := if s.holder = some id then none else s.holder }

/-- **One step of the system.** -/
def step (tenant : SuiteTenant) (s : State R) : Action R → Option (State R)
  | .start id kind =>
      match s.requests id with
      | some _ => none
      | none => some { s with
          requests := Function.update s.requests id (some ⟨kind, .reading .unopened⟩) }
  | .read id =>
      match s.requests id with
      | some ⟨kind, .reading view⟩ =>
          some (s.setPhase id ⟨kind, .reading view⟩ (.reading (view.read s.counts)))
      | _ => none
  | .lock id =>
      match s.requests id, s.holder with
      | some ⟨kind, .reading (.opened counts)⟩, none =>
          some { s.setPhase id ⟨kind, .reading (.opened counts)⟩ (.locked (.opened counts)) with
            holder := some id }
      | _, _ => none
  | .check id =>
      match s.requests id with
      | some ⟨kind, .locked view⟩ =>
          match assertCanAdd tenant kind (view.sees s.counts) with
          | .ok () => some (s.setPhase id ⟨kind, .locked view⟩ .inserted)
          | .error message => some ((s.setPhase id ⟨kind, .locked view⟩ (.refused message)).release id)
      | _ => none
  | .commit id =>
      match s.requests id with
      | some ⟨kind, .inserted⟩ =>
          some { (s.setPhase id ⟨kind, .inserted⟩ .committed).release id with
            counts := Function.update s.counts kind (s.counts kind + 1) }
      | _ => none
  | .fail id =>
      match s.requests id with
      | some request => some ((s.setPhase id request .rolledBack).release id)
      | none => none
  | .delete kind => some { s with counts := Function.update s.counts kind (s.counts kind - 1) }

/-! ## What a step does -/

/-- **The steps**, each with what it needs and what it leaves. -/
inductive Steps (tenant : SuiteTenant) (s : State R) : Action R → State R → Prop
  | start (id : R) (kind : Kind) : s.requests id = none →
      Steps tenant s (.start id kind) { s with
        requests := Function.update s.requests id (some ⟨kind, .reading .unopened⟩) }
  | read (id : R) (kind : Kind) (view : ReadView Counts) :
      s.requests id = some ⟨kind, .reading view⟩ →
      Steps tenant s (.read id)
        (s.setPhase id ⟨kind, .reading view⟩ (.reading (view.read s.counts)))
  | lock (id : R) (kind : Kind) (counts : Counts) :
      s.requests id = some ⟨kind, .reading (.opened counts)⟩ → s.holder = none →
      Steps tenant s (.lock id)
        { s.setPhase id ⟨kind, .reading (.opened counts)⟩ (.locked (.opened counts)) with
          holder := some id }
  | insert (id : R) (kind : Kind) (view : ReadView Counts) :
      s.requests id = some ⟨kind, .locked view⟩ → HasRoom tenant kind (view.sees s.counts) →
      Steps tenant s (.check id) (s.setPhase id ⟨kind, .locked view⟩ .inserted)
  | refuse (id : R) (kind : Kind) (view : ReadView Counts) (message : String) :
      s.requests id = some ⟨kind, .locked view⟩ →
      Steps tenant s (.check id)
        ((s.setPhase id ⟨kind, .locked view⟩ (.refused message)).release id)
  | commit (id : R) (kind : Kind) : s.requests id = some ⟨kind, .inserted⟩ →
      Steps tenant s (.commit id)
        { (s.setPhase id ⟨kind, .inserted⟩ .committed).release id with
          counts := Function.update s.counts kind (s.counts kind + 1) }
  | fail (id : R) (request : Request) : s.requests id = some request →
      Steps tenant s (.fail id) ((s.setPhase id request .rolledBack).release id)
  | delete (kind : Kind) : Steps tenant s (.delete kind)
      { s with counts := Function.update s.counts kind (s.counts kind - 1) }

theorem steps_of_step {tenant : SuiteTenant} {s s' : State R} {action : Action R}
    (taken : step tenant s action = some s') : Steps tenant s action s' := by
  cases action with
  | start id kind =>
    simp only [step] at taken
    cases here : s.requests id with
    | some request => rw [here] at taken; cases taken
    | none =>
      rw [here] at taken
      obtain rfl := Option.some.inj taken
      exact .start id kind here
  | read id =>
    simp only [step] at taken
    split at taken
    case h_1 kind view here =>
      obtain rfl := Option.some.inj taken
      exact .read id kind view here
    case h_2 => cases taken
  | lock id =>
    simp only [step] at taken
    split at taken
    case h_1 kind counts here free =>
      obtain rfl := Option.some.inj taken
      exact .lock id kind counts here free
    case h_2 => cases taken
  | check id =>
    simp only [step] at taken
    split at taken
    case h_1 kind view here =>
      cases checked : assertCanAdd tenant kind (view.sees s.counts) with
      | ok done =>
        rw [checked] at taken
        obtain rfl := Option.some.inj taken
        exact .insert id kind view here (assertCanAdd_ok_iff.mp checked)
      | error message =>
        rw [checked] at taken
        obtain rfl := Option.some.inj taken
        exact .refuse id kind view message here
    case h_2 => cases taken
  | commit id =>
    simp only [step] at taken
    split at taken
    case h_1 kind here =>
      obtain rfl := Option.some.inj taken
      exact .commit id kind here
    case h_2 => cases taken
  | fail id =>
    simp only [step] at taken
    split at taken
    case h_1 request here =>
      obtain rfl := Option.some.inj taken
      exact .fail id request here
    case h_2 => cases taken
  | delete kind =>
    obtain rfl := Option.some.inj taken
    exact .delete kind

/-! ## The invariant -/

/-- The request is past the lock, and its transaction still open. -/
def Phase.holds : Phase → Bool
  | .locked _ => true
  | .inserted => true
  | _ => false

/-- **The checks are serialised**: who is past the lock holds the row; what it saw as room is room, and
the committed documents are within every limit. -/
structure Serialised (tenant : SuiteTenant) (s : State R) : Prop where
  holder : ∀ {id request}, s.requests id = some request → request.phase.holds = true →
    s.holder = some id
  locked : ∀ {id kind view}, s.requests id = some ⟨kind, .locked view⟩ →
    ∃ seen, view = .opened seen ∧ (HasRoom tenant kind seen → HasRoom tenant kind s.counts)
  inserted : ∀ {id kind}, s.requests id = some ⟨kind, .inserted⟩ → HasRoom tenant kind s.counts
  within : ∀ kind, tenant.limit kind ≠ 0 → s.counts kind ≤ tenant.limit kind

/-- What a request that waits for the lock creates, and the counts its view shows. -/
def waiting : Option Request → Option (Kind × Counts)
  | some ⟨kind, .reading (.opened seen)⟩ => some (kind, seen)
  | _ => none

/-- **The condition**: no request takes the lock while its view shows room for its kind of document
and the committed documents leave none. -/
def seesWhatIsLeft (tenant : SuiteTenant) (s : State R) : Action R → Prop
  | .lock id => ∀ entry ∈ waiting (s.requests id),
      HasRoom tenant entry.1 entry.2 → HasRoom tenant entry.1 s.counts
  | _ => True

instance (tenant : SuiteTenant) (s : State R) (action : Action R) :
    Decidable (seesWhatIsLeft tenant s action) :=
  match action with
  | .lock id => inferInstanceAs (Decidable (∀ entry ∈ waiting (s.requests id),
      HasRoom tenant entry.1 entry.2 → HasRoom tenant entry.1 s.counts))
  | .start _ _ => isTrue trivial
  | .read _ => isTrue trivial
  | .check _ => isTrue trivial
  | .commit _ => isTrue trivial
  | .fail _ => isTrue trivial
  | .delete _ => isTrue trivial

variable {tenant : SuiteTenant} {s s' : State R}

theorem HasRoom.delete {kind other : Kind} {counts : Counts} (room : HasRoom tenant kind counts) :
    HasRoom tenant kind (Function.update counts other (counts other - 1)) := by
  refine room.imp_right fun less => ?_
  by_cases same : kind = other
  · subst same
    rw [Function.update_self]
    omega
  · rw [Function.update_of_ne same]
    exact less

/-- The phase of a request that ends, or has not locked yet, says nothing. -/
theorem Serialised.moved (serialised : Serialised tenant s) (id : R) (request : Request)
    {phase : Phase} (outside : phase.holds = false) :
    Serialised tenant (s.setPhase id request phase) := by
  refine ⟨?_, ?_, ?_, serialised.within⟩
  · intro other holder there holds
    rcases update_eq_some there with ⟨rfl, rfl⟩ | ⟨-, there⟩
    · rw [outside] at holds
      cases holds
    · exact serialised.holder there holds
  · intro other kind view there
    rcases update_eq_some there with ⟨rfl, same⟩ | ⟨-, there⟩
    · obtain ⟨-, rfl⟩ := Request.mk.inj same
      cases outside
    · exact serialised.locked there
  · intro other kind there
    rcases update_eq_some there with ⟨rfl, same⟩ | ⟨-, there⟩
    · obtain ⟨-, rfl⟩ := Request.mk.inj same
      cases outside
    · exact serialised.inserted there

theorem Serialised.released (serialised : Serialised tenant s) (id : R) (request : Request)
    {phase : Phase} (outside : phase.holds = false) :
    Serialised tenant ((s.setPhase id request phase).release id) := by
  have moved := serialised.moved id request outside
  refine ⟨?_, moved.locked, moved.inserted, moved.within⟩
  intro other holder there holds
  have held := moved.holder there holds
  have different : other ≠ id := by
    rintro rfl
    rcases update_eq_some there with ⟨-, rfl⟩ | ⟨absurd, -⟩
    · rw [outside] at holds
      cases holds
    · exact absurd rfl
  simp only [State.release, held, Option.some.injEq, if_neg different]

theorem serialised_lock {id : R} {kind : Kind} {seen : Counts} (serialised : Serialised tenant s)
    (free : s.holder = none) (kept : HasRoom tenant kind seen → HasRoom tenant kind s.counts)
    (request : Request) (same : request.kind = kind) :
    Serialised tenant
      { s.setPhase id request (.locked (.opened seen)) with holder := some id } := by
  -- Nobody else is past the lock, since the row was free.
  have nobody : ∀ {other holder}, s.requests other = some holder → holder.phase.holds = true →
      False := by
    intro other holder there holds
    have held := serialised.holder there holds
    rw [free] at held
    cases held
  refine ⟨?_, ?_, ?_, serialised.within⟩
  · intro other holder there holds
    rcases update_eq_some there with ⟨rfl, -⟩ | ⟨-, there⟩
    · rfl
    · exact (nobody there holds).elim
  · intro other kind' view there
    rcases update_eq_some there with ⟨rfl, equal⟩ | ⟨-, there⟩
    · obtain ⟨rfl, sameView⟩ := Request.mk.inj equal
      rw [same]
      exact ⟨seen, Phase.locked.inj sameView, kept⟩
    · exact (nobody there rfl).elim
  · intro other kind' there
    rcases update_eq_some there with ⟨-, equal⟩ | ⟨-, there⟩
    · cases (Request.mk.inj equal).2
    · exact (nobody there rfl).elim

theorem serialised_insert {id : R} {kind : Kind} {view : ReadView Counts}
    (serialised : Serialised tenant s) (here : s.requests id = some ⟨kind, .locked view⟩)
    (room : HasRoom tenant kind s.counts) :
    Serialised tenant (s.setPhase id ⟨kind, .locked view⟩ .inserted) := by
  refine ⟨?_, ?_, ?_, serialised.within⟩
  · intro other holder there holds
    rcases update_eq_some there with ⟨rfl, -⟩ | ⟨-, there⟩
    · exact serialised.holder here rfl
    · exact serialised.holder there holds
  · intro other kind' view' there
    rcases update_eq_some there with ⟨-, equal⟩ | ⟨-, there⟩
    · cases (Request.mk.inj equal).2
    · exact serialised.locked there
  · intro other kind' there
    rcases update_eq_some there with ⟨rfl, equal⟩ | ⟨-, there⟩
    · obtain ⟨rfl, -⟩ := Request.mk.inj equal
      exact room
    · exact serialised.inserted there

theorem serialised_commit {id : R} {kind : Kind} (serialised : Serialised tenant s)
    (here : s.requests id = some ⟨kind, .inserted⟩) :
    Serialised tenant { (s.setPhase id ⟨kind, .inserted⟩ .committed).release id with
      counts := Function.update s.counts kind (s.counts kind + 1) } := by
  have released : Serialised tenant ((s.setPhase id ⟨kind, .inserted⟩ .committed).release id) :=
    serialised.released id ⟨kind, .inserted⟩ rfl
  have room := serialised.inserted here
  have held := serialised.holder here rfl
  -- The row goes with the commit, so whoever is past the lock afterwards would hold it twice.
  have nobody : ∀ {other holder},
      ((s.setPhase id ⟨kind, .inserted⟩ .committed).release id).requests other = some holder →
      holder.phase.holds = true → False := by
    intro other holder there holds
    have again := released.holder there holds
    simp only [State.release, State.setPhase, held, if_true] at again
    cases again
  refine ⟨?_, ?_, ?_, ?_⟩
  · exact fun there holds => (nobody there holds).elim
  · exact fun there => (nobody there rfl).elim
  · exact fun there => (nobody there rfl).elim
  · intro other limited
    by_cases same : other = kind
    · subst same
      have less := room.resolve_left limited
      simp only [Function.update_self]
      exact less
    · simp only [Function.update_of_ne same]
      exact serialised.within other limited

theorem serialised_step {action : Action R} (serialised : Serialised tenant s)
    (allowed : seesWhatIsLeft tenant s action) (steps : Steps tenant s action s') :
    Serialised tenant s' := by
  cases steps with
  | start id kind fresh => exact serialised.moved id ⟨kind, .reading .unopened⟩ rfl
  | read id kind view here => exact serialised.moved id ⟨kind, .reading view⟩ rfl
  | lock id kind seen here free =>
    have kept := allowed (kind, seen) (by rw [here]; rfl)
    exact serialised_lock serialised free kept ⟨kind, .reading (.opened seen)⟩ rfl
  | insert id kind view here room =>
    obtain ⟨seen, rfl, kept⟩ := serialised.locked here
    exact serialised_insert serialised here (kept room)
  | refuse id kind view message here => exact serialised.released id ⟨kind, .locked view⟩ rfl
  | commit id kind here => exact serialised_commit serialised here
  | fail id request here => exact serialised.released id request rfl
  | delete kind =>
    refine ⟨serialised.holder, ?_, fun there => (serialised.inserted there).delete, ?_⟩
    · intro id kind' view there
      obtain ⟨seen, opened, kept⟩ := serialised.locked there
      exact ⟨seen, opened, fun room => (kept room).delete⟩
    · intro other limited
      have before := serialised.within other limited
      by_cases same : other = kind
      · subst same
        simp only [Function.update_self]
        omega
      · simp only [Function.update_of_ne same]
        exact before

/-! ## The limits hold -/

/-- **Tenant limits are never exceeded** in a run in which no request takes the lock with a view that
shows room where the committed documents leave none: from documents within the limits, every state
reached is within them. -/
theorem limits_never_exceeded (tenant : SuiteTenant) (counts : Counts)
    (within : ∀ kind, tenant.limit kind ≠ 0 → counts kind ≤ tenant.limit kind) (s : State R)
    (reached : Reaches (step tenant) (seesWhatIsLeft tenant) (State.initial counts) s)
    (kind : Kind) (limited : tenant.limit kind ≠ 0) : s.counts kind ≤ tenant.limit kind := by
  have serialised : Serialised tenant s := by
    refine reached.invariant (Serialised tenant) ?_ ?_
    · refine ⟨?_, ?_, ?_, within⟩
      · intro id request there
        cases there
      · intro id kind view there
        cases there
      · intro id kind there
        cases there
    · intro here there action serialised allowed taken
      exact serialised_step serialised allowed (steps_of_step taken)
  exact serialised.within kind limited

/-- A tenant with room for one document of each kind. -/
def smallPlan : SuiteTenant := ⟨"acme", 1, 1, 1, 1⟩

/-- Two requests for the last slot, one after the other: the second reads once the first committed. -/
theorem limits_never_exceeded_in_turn :
    ∃ s : State ℕ, Reaches (step smallPlan) (seesWhatIsLeft smallPlan) (State.initial fun _ => 0) s ∧
      s.counts .account = 1 ∧ s.counts .account ≤ smallPlan.limit .account := by
  have meets : RunMeets (step smallPlan) (seesWhatIsLeft smallPlan) (State.initial fun _ => 0)
      [.start 0 .account, .start 1 .account, .read 0, .lock 0, .check 0, .commit 0, .read 1, .lock 1,
        .check 1] := by decide
  have seen : (run (step smallPlan) (State.initial fun _ => 0)
      [.start 0 .account, .start 1 .account, .read 0, .lock 0, .check 0, .commit 0, .read 1, .lock 1,
        .check 1]).map (fun s => s.counts .account) = some 1 := by decide
  obtain ⟨s, ends, one⟩ := Option.map_eq_some_iff.mp seen
  have reached := reaches_of_run meets ends
  exact ⟨s, reached, one, limits_never_exceeded smallPlan (fun _ => 0) (fun _ _ => Nat.zero_le _) s
    reached .account (by decide)⟩

/-- **The last slot taken twice.** Both requests have read when the first commits; the second waits for
the row, but counts the documents of its own view. -/
theorem last_slot_taken_twice :
    ¬ ∀ s : State ℕ, Reaches (step smallPlan) anyStep (State.initial fun _ => 0) s →
      s.counts .account ≤ smallPlan.limit .account := by
  intro within
  have seen : (run (step smallPlan) (State.initial fun _ => 0)
      [.start 0 .account, .start 1 .account, .read 0, .read 1, .lock 0, .check 0, .commit 0, .lock 1,
        .check 1, .commit 1]).map (fun s : State ℕ => s.counts .account) = some 2 := by decide
  obtain ⟨s, ends, two⟩ := Option.map_eq_some_iff.mp seen
  have le := within s (reaches_of_run (runMeets_of_forall fun _ _ _ => trivial) ends)
  rw [two] at le
  exact absurd le (by decide)

end SuiteCloud.Tenancy
