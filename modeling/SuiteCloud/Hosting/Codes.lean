/-
**The one-time code of a signup.**

`send_otp` and `verify_otp` of `suite_cloud/hosting/doctype/suite_tenant_request/suite_tenant_request.py`, on
one request: the code's hash, the wrong guesses so far and the lifetime are one value of the cache, which a
wrong guess reads, changes and writes back with a lifetime of its own.

* `Action`, `step` — time, codes sent, calls of `verify_otp` one access of the cache at a time.
* `Guarded` — every code was accepted within its lifetime, and few wrong guesses were compared with it.
* `Meets` — no wrong guess at a code reads the cache while another's is not written back, and no right one
  reads a code that a wrong guess kept alive, or is held when the lifetime ends.
* `code_guarded` — **in a run whose every step meets that, the code is guarded.**
* `accepted_after_lifetime`, `guesses_side_by_side` — a code is accepted that a wrong guess kept alive; six
  wrong guesses are compared.
-/

import Mathlib.Logic.Function.Basic
import Mathlib.Algebra.Order.Group.Nat
import SuiteCloud.Library.Text
import SuiteCloud.Library.Transition

set_option linter.unusedSectionVars false

namespace SuiteCloud.Hosting.Codes

open SuiteCloud.Library

/-! ## The cached code -/

/-- `OTP_TTL`, in milliseconds. -/
def otpTtl : ℕ := 600000

/-- `OTP_ATTEMPTS`. -/
def otpAttempts : ℕ := 5

/-- What the cache holds under `otp_key`, and until when. `send` and `sentAt` are the `send_otp` that made the
code, `kept` says that a wrong guess has written it back; no code reads these. -/
structure Entry (H : Type) where
  hash : H
  attempts : ℕ
  expiry : ℕ
  send : ℕ
  sentAt : ℕ
  kept : Bool
  deriving DecidableEq

/-- Where a call of `verify_otp` stands. -/
inductive Stage (H : Type)
  /-- The request was waiting for a code; the cache is read next. -/
  | loaded
  /-- The guess is compared next. -/
  | holding (entry : Entry H)
  /-- The guess was wrong: it is counted next. -/
  | missed (entry : Entry H)
  /-- The guess was right: the code is deleted next. -/
  | matched
  /-- The request is marked next. -/
  | deleted
  deriving DecidableEq

structure Call (H : Type) where
  guess : String
  stage : Stage H
  deriving DecidableEq

/-- The status of a Suite Tenant Request, as far as a code matters to it. -/
inductive Status
  | pending
  | verified
  | expired
  deriving DecidableEq

/-- The request, the cache, the calls under way, how many codes were sent, the wrong guesses compared with
each, and when each accepted code was sent and accepted. -/
structure State (I H : Type) where
  now : ℕ
  status : Status
  expiresAt : ℕ
  cache : Option (Entry H)
  calls : I → Option (Call H)
  sends : ℕ
  wrong : ℕ → ℕ
  accepted : List (ℕ × ℕ)

/-- A request just inserted. -/
def State.start {I H : Type} (now expiresAt : ℕ) : State I H :=
  ⟨now, .pending, expiresAt, none, fun _ => none, 0, fun _ => 0, []⟩

inductive Action (I : Type)
  | pass (milliseconds : ℕ)
  | sendOtp (otp : String)
  /-- `verify_otp` is called. -/
  | load (id : I) (guess : String)
  | read (id : I)
  | compare (id : I)
  /-- A wrong guess is written back. -/
  | write (id : I)
  | delete (id : I)
  | verify (id : I)
  /-- `expire_requests`. -/
  | expire
  /-- The cache drops the value. -/
  | evict

variable {I H : Type} [DecidableEq I] [DecidableEq H] (otpHash : String → H) (s : State I H)

/-- What the cache answers with. -/
def State.cached : Option (Entry H) := s.cache.filter (s.now < ·.expiry)

/-- The guess is the code. -/
def isCode (guess : String) (entry : Entry H) : Bool := entry.hash = otpHash (strip guess)

def State.setCall (id : I) (call : Option (Call H)) : State I H :=
  { s with calls := Function.update s.calls id call }

@[simp] theorem setCall_calls_self (id : I) (call : Option (Call H)) : (s.setCall id call).calls id = call :=
  Function.update_self ..

theorem setCall_calls_of_ne {id other : I} (call : Option (Call H)) (differ : other ≠ id) :
    (s.setCall id call).calls other = s.calls other := Function.update_of_ne differ ..

/-- `stored`, with one attempt more and a lifetime from now on. -/
def Entry.countedAt (now : ℕ) (entry : Entry H) : Entry H :=
  { entry with attempts := entry.attempts + 1, expiry := now + otpTtl, kept := true }

/-- **One step.** -/
def step : Action I → Option (State I H)
  | .pass milliseconds => some { s with now := s.now + milliseconds }
  | .sendOtp otp =>
    some { s with
      cache := some ⟨otpHash otp, 0, s.now + otpTtl, s.sends, s.now, false⟩
      sends := s.sends + 1 }
  | .load id guess =>
    if s.calls id = none then
      if s.status = .pending ∧ s.now ≤ s.expiresAt then some (s.setCall id (some ⟨guess, .loaded⟩))
      else some s
    else none
  | .read id =>
    match s.calls id with
    | some ⟨guess, .loaded⟩ =>
      match s.cached with
      | some entry =>
        if otpAttempts ≤ entry.attempts then some (s.setCall id none)
        else some (s.setCall id (some ⟨guess, .holding entry⟩))
      | none => some (s.setCall id none)
    | _ => none
  | .compare id =>
    match s.calls id with
    | some ⟨guess, .holding entry⟩ =>
      if isCode otpHash guess entry then
        some { s.setCall id (some ⟨guess, .matched⟩) with
          accepted := (entry.sentAt, s.now) :: s.accepted }
      else
        some { s.setCall id (some ⟨guess, .missed entry⟩) with
          wrong := Function.update s.wrong entry.send (s.wrong entry.send + 1) }
    | _ => none
  | .write id =>
    match s.calls id with
    | some ⟨_, .missed entry⟩ => some { s.setCall id none with cache := some (entry.countedAt s.now) }
    | _ => none
  | .delete id =>
    match s.calls id with
    | some ⟨guess, .matched⟩ => some { s.setCall id (some ⟨guess, .deleted⟩) with cache := none }
    | _ => none
  | .verify id =>
    match s.calls id with
    | some ⟨_, .deleted⟩ => some { s.setCall id none with status := .verified }
    | _ => none
  | .expire => if s.status = .pending ∧ s.expiresAt < s.now then some { s with status := .expired } else none
  | .evict => some { s with cache := none }

/-! ## What is proved -/

/-- **Every code was accepted within its lifetime, and at most `OTP_ATTEMPTS` wrong guesses were compared with
it.** -/
def Guarded : Prop :=
  (∀ accepted ∈ s.accepted, accepted.2 ≤ accepted.1 + otpTtl) ∧ ∀ send, s.wrong send ≤ otpAttempts

/-- The code a wrong guess has been read for and is not written back to yet. -/
def Call.against (call : Call H) : Option ℕ :=
  match call.stage with
  | .holding entry => if isCode otpHash call.guess entry then none else some entry.send
  | .missed entry => some entry.send
  | _ => none

/-- The guess was read with the code it is, and is compared next: since when the code is sent. -/
def Call.right (call : Call H) : Option ℕ :=
  match call.stage with
  | .holding entry => if isCode otpHash call.guess entry then some entry.sentAt else none
  | _ => none

/-- **No two wrong guesses at a code are between their read and their write, no code that a wrong guess kept
alive is read by the right one after its lifetime, and none is being compared when that ends.** -/
def Meets : Action I → Prop
  | .read id => ∀ call ∈ s.calls id, ∀ entry ∈ s.cache,
      if isCode otpHash call.guess entry then entry.kept = true → s.now ≤ entry.sentAt + otpTtl
      else ∀ other, ∀ wrong ∈ s.calls other, wrong.against otpHash ≠ some entry.send
  | .pass milliseconds => ∀ id, ∀ call ∈ s.calls id, ∀ sentAt ∈ call.right otpHash,
      s.now + milliseconds ≤ sentAt + otpTtl
  | _ => True

section Runs

variable {otpHash s} {s' : State I H} {id : I} {guess : String} {entry : Entry H}

/-- No wrong guess at the code is between its read and its write. -/
def Quiet (otpHash : String → H) (s : State I H) (send : ℕ) : Prop :=
  ∀ id, ∀ call ∈ s.calls id, call.against otpHash ≠ some send

/-- What is so of a call that has read the code. -/
def Fits (otpHash : String → H) (s : State I H) (call : Call H) : Prop :=
  match call.stage with
  | .holding entry => entry.attempts < otpAttempts ∧ entry.send < s.sends ∧
      if isCode otpHash call.guess entry then s.now ≤ entry.sentAt + otpTtl
      else s.wrong entry.send ≤ entry.attempts
  | .missed entry => entry.attempts < otpAttempts ∧ entry.send < s.sends ∧
      s.wrong entry.send ≤ entry.attempts + 1
  | _ => True

/-- **The invariant**: the cache has counted every wrong guess but the one that is not written back yet. -/
structure Inv (otpHash : String → H) (s : State I H) : Prop where
  unsent : ∀ send, s.sends ≤ send → s.wrong send = 0
  sent : ∀ entry ∈ s.cache, entry.send < s.sends
  counted : ∀ entry ∈ s.cache, Quiet otpHash s entry.send → s.wrong entry.send ≤ entry.attempts
  lifetime : ∀ entry ∈ s.cache, entry.kept = false → entry.expiry = entry.sentAt + otpTtl
  fits : ∀ id, ∀ call ∈ s.calls id, Fits otpHash s call
  single : ∀ id, ∀ call ∈ s.calls id, ∀ other, ∀ wrong ∈ s.calls other, ∀ send,
    call.against otpHash = some send → wrong.against otpHash = some send → id = other
  guarded : Guarded s

theorem Inv.start (now expiresAt : ℕ) : Inv otpHash (State.start now expiresAt : State I H) :=
  ⟨fun _ _ => rfl, nofun, nofun, nofun, nofun, nofun, nofun, fun _ => Nat.zero_le _⟩

theorem against_holding {call : Call H} (holding : call.stage = .holding entry) :
    call.against otpHash = if isCode otpHash call.guess entry then none else some entry.send := by
  rw [Call.against, holding]

/-- **A call goes on**: it takes up a code only where no other wrong guess at it is under way, and lets go of
one only where the cache has counted it. -/
theorem setCall_inv {call : Option (Call H)} (inv : Inv otpHash s)
    (fits : ∀ next ∈ call, Fits otpHash s next)
    (taken : ∀ next ∈ call, ∀ send, next.against otpHash = some send →
      (∃ old ∈ s.calls id, old.against otpHash = some send) ∨ Quiet otpHash s send)
    (left : ∀ old ∈ s.calls id, ∀ send, old.against otpHash = some send →
      (∃ next ∈ call, next.against otpHash = some send) ∨
        ∀ entry ∈ s.cache, entry.send = send → s.wrong send ≤ entry.attempts) :
    Inv otpHash (s.setCall id call) := by
  have calls : ∀ other, ∀ held ∈ (s.setCall id call).calls other,
      (other = id ∧ held ∈ call) ∨ (other ≠ id ∧ held ∈ s.calls other) := by
    intro other held member
    by_cases same : other = id
    · subst same
      rw [setCall_calls_self] at member
      exact Or.inl ⟨rfl, member⟩
    · rw [setCall_calls_of_ne s call same] at member
      exact Or.inr ⟨same, member⟩
  -- The call that goes on and another are not against the same code.
  have apart : ∀ next ∈ call, ∀ other, other ≠ id → ∀ held ∈ s.calls other, ∀ send,
      next.against otpHash = some send → held.against otpHash ≠ some send := by
    intro next member other different held there send against same
    rcases taken next member send against with ⟨old, before, was⟩ | quiet
    · exact different (inv.single other held there id old before send same was)
    · exact quiet other held there same
  refine ⟨inv.unsent, inv.sent, ?_, inv.lifetime, ?_, ?_, inv.guarded⟩
  · intro entry cached quiet
    have others : ∀ other, other ≠ id → ∀ held ∈ s.calls other, held.against otpHash ≠ some entry.send := by
      intro other different held there
      refine quiet other held ?_
      rw [setCall_calls_of_ne s call different]
      exact there
    by_cases was : ∃ old ∈ s.calls id, old.against otpHash = some entry.send
    · obtain ⟨old, before, against⟩ := was
      rcases left old before entry.send against with ⟨next, member, still⟩ | counted
      · refine absurd still (quiet id next ?_)
        rw [setCall_calls_self]
        exact member
      · exact counted entry cached rfl
    · refine inv.counted entry cached fun other held there against => ?_
      by_cases same : other = id
      · subst same
        exact was ⟨held, there, against⟩
      · exact others other same held there against
  · intro other held member
    rcases calls other held member with ⟨-, new⟩ | ⟨-, old⟩
    · exact fits held new
    · exact inv.fits other held old
  · intro one held here other wrong there send against against'
    rcases calls one held here with ⟨rfl, new⟩ | ⟨differs, old⟩ <;>
      rcases calls other wrong there with ⟨rfl, new'⟩ | ⟨differs', old'⟩
    · rfl
    · exact absurd against' (apart held new other differs' wrong old' send against)
    · exact absurd against (apart wrong new' one differs held old send against')
    · exact inv.single one held old other wrong old' send against against'

theorem setCall_inv_idle {call : Option (Call H)} (inv : Inv otpHash s)
    (before : ∀ old ∈ s.calls id, old.against otpHash = none)
    (after : ∀ next ∈ call, next.against otpHash = none) (fits : ∀ next ∈ call, Fits otpHash s next) :
    Inv otpHash (s.setCall id call) := by
  refine setCall_inv inv fits ?_ ?_
  · intro next member send against
    rw [after next member] at against
    cases against
  · intro old member send against
    rw [before old member] at against
    cases against

theorem cache_inv {cache : Option (Entry H)} (inv : Inv otpHash s)
    (sent : ∀ entry ∈ cache, entry.send < s.sends)
    (counted : ∀ entry ∈ cache, Quiet otpHash s entry.send → s.wrong entry.send ≤ entry.attempts)
    (lifetime : ∀ entry ∈ cache, entry.kept = false → entry.expiry = entry.sentAt + otpTtl) :
    Inv otpHash { s with cache := cache } :=
  ⟨inv.unsent, sent, counted, lifetime, inv.fits, inv.single, inv.guarded⟩

theorem evict_inv (inv : Inv otpHash s) : Inv otpHash { s with cache := none } :=
  cache_inv inv nofun nofun nofun

theorem sendOtp_inv {otp : String} (inv : Inv otpHash s) :
    Inv otpHash { s with
      cache := some ⟨otpHash otp, 0, s.now + otpTtl, s.sends, s.now, false⟩
      sends := s.sends + 1 } := by
  refine ⟨?_, ?_, ?_, ?_, ?_, inv.single, inv.guarded⟩
  · exact fun send beyond => inv.unsent send ((Nat.le_succ _).trans beyond)
  · intro entry cached
    obtain rfl := Option.some.inj cached
    exact Nat.lt_succ_self _
  · intro entry cached _
    obtain rfl := Option.some.inj cached
    exact (inv.unsent _ le_rfl).le
  · intro entry cached _
    obtain rfl := Option.some.inj cached
    rfl
  · intro id call member
    have fits := inv.fits id call member
    rw [Fits] at fits ⊢
    split at fits
    · exact ⟨fits.1, fits.2.1.trans (Nat.lt_succ_self _), fits.2.2⟩
    · exact ⟨fits.1, fits.2.1.trans (Nat.lt_succ_self _), fits.2.2⟩
    · trivial

/-! ### The steps of a call -/

theorem read_inv (inv : Inv otpHash s) (meets : Meets otpHash s (.read id))
    (taken : step otpHash s (.read id) = some s') : Inv otpHash s' := by
  delta step at taken
  simp only at taken
  split at taken
  · rename_i guess call
    have before : ∀ old ∈ s.calls id, old.against otpHash = none := by
      intro old member
      rw [call] at member
      obtain rfl := Option.some.inj member
      rfl
    have ended : Inv otpHash (s.setCall id none) := setCall_inv_idle inv before nofun nofun
    split at taken
    · rename_i entry cached
      obtain ⟨held, alive⟩ := Option.filter_eq_some_iff.mp cached
      split at taken
      · obtain rfl := Option.some.inj taken
        exact ended
      · rename_i more
        obtain rfl := Option.some.inj taken
        have meets := meets _ call entry held
        have few : entry.attempts < otpAttempts := Nat.lt_of_not_le more
        by_cases right : isCode otpHash guess entry = true
        · rw [if_pos right] at meets
          refine setCall_inv_idle inv before ?_ ?_
          · intro next member
            obtain rfl := Option.some.inj member
            exact if_pos right
          · intro next member
            obtain rfl := Option.some.inj member
            refine ⟨few, inv.sent entry held, ?_⟩
            rw [if_pos right]
            cases kept : entry.kept with
            | true => exact meets kept
            | false =>
              -- Nothing but its first lifetime has kept the code.
              rw [← inv.lifetime entry held kept]
              exact (of_decide_eq_true alive).le
        · rw [if_neg right] at meets
          have quiet : Quiet otpHash s entry.send := meets
          have against : Call.against otpHash ⟨guess, .holding entry⟩ = some entry.send := if_neg right
          refine setCall_inv inv ?_ ?_ ?_
          · intro next member
            obtain rfl := Option.some.inj member
            refine ⟨few, inv.sent entry held, ?_⟩
            rw [if_neg right]
            exact inv.counted entry held quiet
          · intro next member send same
            obtain rfl := Option.some.inj member
            obtain rfl := Option.some.inj (against.symm.trans same)
            exact Or.inr quiet
          · intro old member send same
            rw [before old member] at same
            cases same
    · obtain rfl := Option.some.inj taken
      exact ended
  · cases taken

theorem missed_inv (inv : Inv otpHash s) (call : s.calls id = some ⟨guess, .holding entry⟩)
    (wrong : ¬ isCode otpHash guess entry = true) :
    Inv otpHash { s.setCall id (some ⟨guess, .missed entry⟩) with
      wrong := Function.update s.wrong entry.send (s.wrong entry.send + 1) } := by
  obtain ⟨few, sent, fits⟩ := inv.fits id _ call
  rw [if_neg wrong] at fits
  have against : Call.against otpHash ⟨guess, .holding entry⟩ = some entry.send := if_neg wrong
  have going : Inv otpHash (s.setCall id (some ⟨guess, .missed entry⟩)) := by
    refine setCall_inv inv ?_ ?_ ?_
    · intro next member
      obtain rfl := Option.some.inj member
      exact ⟨few, sent, fits.trans (Nat.le_succ _)⟩
    · intro next member send same
      obtain rfl := Option.some.inj member
      exact Or.inl ⟨_, call, against.trans same⟩
    · intro old member send same
      obtain rfl := Option.some.inj (call.symm.trans member)
      exact Or.inl ⟨_, rfl, against.symm.trans same⟩
  have self : (s.setCall id (some ⟨guess, .missed entry⟩)).calls id = some ⟨guess, .missed entry⟩ :=
    setCall_calls_self s id _
  refine ⟨?_, going.sent, ?_, going.lifetime, ?_, going.single, going.guarded.1, ?_⟩
  · intro send beyond
    have differ : send ≠ entry.send := fun same => absurd sent (not_lt.mpr (same ▸ beyond))
    exact (Function.update_of_ne differ _ _).trans (going.unsent send beyond)
  · intro cached member quiet
    have differ : cached.send ≠ entry.send := fun same => quiet id _ self (congrArg some same.symm)
    show Function.update s.wrong entry.send _ cached.send ≤ cached.attempts
    rw [Function.update_of_ne differ]
    exact going.counted cached member quiet
  · intro other held member
    by_cases same : other = id
    · subst same
      obtain rfl := Option.some.inj (self.symm.trans member)
      refine ⟨few, sent, ?_⟩
      show Function.update s.wrong entry.send _ entry.send ≤ entry.attempts + 1
      rw [Function.update_self]
      exact Nat.succ_le_succ fits
    · have good := going.fits other held member
      -- No other wrong guess at this code is under way.
      have apart : held.against otpHash ≠ some entry.send := fun here =>
        same (going.single other held member id _ self entry.send here rfl)
      rw [Call.against] at apart
      rw [Fits] at good ⊢
      split at good
      · rename_i another stage
        rw [stage] at apart
        refine ⟨good.1, good.2.1, ?_⟩
        split
        · rename_i right
          rw [if_pos right] at good
          exact good.2.2
        · rename_i wrong
          rw [if_neg wrong] at good
          have differ : another.send ≠ entry.send := fun here =>
            apart ((if_neg wrong).trans (congrArg some here))
          show Function.update s.wrong entry.send _ another.send ≤ another.attempts
          rw [Function.update_of_ne differ]
          exact good.2.2
      · rename_i another stage
        rw [stage] at apart
        have differ : another.send ≠ entry.send := fun here => apart (congrArg some here)
        refine ⟨good.1, good.2.1, ?_⟩
        show Function.update s.wrong entry.send _ another.send ≤ another.attempts + 1
        rw [Function.update_of_ne differ]
        exact good.2.2
      · trivial
  · intro send
    show Function.update s.wrong entry.send _ send ≤ otpAttempts
    by_cases same : send = entry.send
    · subst same
      rw [Function.update_self]
      exact Nat.succ_le_of_lt (lt_of_le_of_lt fits few)
    · rw [Function.update_of_ne same]
      exact inv.guarded.2 send

theorem matched_inv (inv : Inv otpHash s) (call : s.calls id = some ⟨guess, .holding entry⟩)
    (right : isCode otpHash guess entry = true) :
    Inv otpHash { s.setCall id (some ⟨guess, .matched⟩) with
      accepted := (entry.sentAt, s.now) :: s.accepted } := by
  obtain ⟨few, sent, fits⟩ := inv.fits id _ call
  rw [if_pos right] at fits
  have going : Inv otpHash (s.setCall id (some ⟨guess, .matched⟩)) := by
    refine setCall_inv_idle inv ?_ ?_ ?_
    · intro old member
      obtain rfl := Option.some.inj (call.symm.trans member)
      exact if_pos right
    · intro next member
      obtain rfl := Option.some.inj member
      rfl
    · intro next member
      obtain rfl := Option.some.inj member
      trivial
  refine ⟨going.unsent, going.sent, going.counted, going.lifetime, going.fits, going.single, ?_, inv.guarded.2⟩
  intro accepted member
  rcases List.mem_cons.mp member with rfl | old
  · exact fits
  · exact inv.guarded.1 accepted old

theorem compare_inv (inv : Inv otpHash s) (taken : step otpHash s (.compare id) = some s') :
    Inv otpHash s' := by
  delta step at taken
  simp only at taken
  split at taken
  · rename_i guess entry call
    split at taken
    · obtain rfl := Option.some.inj taken
      exact matched_inv inv call ‹_›
    · obtain rfl := Option.some.inj taken
      exact missed_inv inv call ‹_›
  · cases taken

theorem write_inv (inv : Inv otpHash s) (taken : step otpHash s (.write id) = some s') : Inv otpHash s' := by
  delta step at taken
  simp only at taken
  split at taken
  · rename_i guess entry call
    obtain rfl := Option.some.inj taken
    obtain ⟨few, sent, fits⟩ := inv.fits id _ call
    have cached : Inv otpHash { s with cache := some (entry.countedAt s.now) } := by
      refine cache_inv inv ?_ ?_ ?_
      · intro counted member
        obtain rfl := Option.some.inj member
        exact sent
      · intro counted member _
        obtain rfl := Option.some.inj member
        exact fits
      · intro counted member unkept
        obtain rfl := Option.some.inj member
        cases unkept
    refine setCall_inv cached nofun nofun ?_
    intro old member send against
    obtain rfl := Option.some.inj (call.symm.trans member)
    obtain rfl := Option.some.inj against
    refine Or.inr fun counted member _ => ?_
    obtain rfl := Option.some.inj member
    exact fits
  · cases taken

theorem delete_inv (inv : Inv otpHash s) (taken : step otpHash s (.delete id) = some s') :
    Inv otpHash s' := by
  delta step at taken
  simp only at taken
  split at taken
  · rename_i guess call
    obtain rfl := Option.some.inj taken
    refine setCall_inv_idle (evict_inv inv) ?_ ?_ ?_
    · intro old member
      obtain rfl := Option.some.inj (call.symm.trans member)
      rfl
    · intro next member
      obtain rfl := Option.some.inj member
      rfl
    · intro next member
      obtain rfl := Option.some.inj member
      trivial
  · cases taken

theorem status_inv {status : Status} (inv : Inv otpHash s) : Inv otpHash { s with status := status } :=
  ⟨inv.unsent, inv.sent, inv.counted, inv.lifetime, inv.fits, inv.single, inv.guarded⟩

theorem verify_inv (inv : Inv otpHash s) (taken : step otpHash s (.verify id) = some s') :
    Inv otpHash s' := by
  simp only [step] at taken
  split at taken
  · rename_i guess call
    obtain rfl := Option.some.inj taken
    refine setCall_inv_idle (status_inv inv) ?_ nofun nofun
    intro old member
    obtain rfl := Option.some.inj (call.symm.trans member)
    rfl
  · cases taken

theorem pass_inv {milliseconds : ℕ} (inv : Inv otpHash s) (meets : Meets otpHash s (.pass milliseconds)) :
    Inv otpHash { s with now := s.now + milliseconds } := by
  refine ⟨inv.unsent, inv.sent, inv.counted, inv.lifetime, ?_, inv.single, inv.guarded⟩
  intro id call member
  have fits := inv.fits id call member
  have meets := meets id call member
  rw [Fits] at fits ⊢
  rw [Call.right] at meets
  split at fits
  · rename_i entry stage
    rw [stage] at meets
    refine ⟨fits.1, fits.2.1, ?_⟩
    split
    · rename_i right
      exact meets _ (if_pos right)
    · rename_i wrong
      rw [if_neg wrong] at fits
      exact fits.2.2
  · exact fits
  · trivial

theorem step_inv {action : Action I} (inv : Inv otpHash s) (meets : Meets otpHash s action)
    (taken : step otpHash s action = some s') : Inv otpHash s' := by
  cases action with
  | pass milliseconds =>
    obtain rfl := Option.some.inj taken
    exact pass_inv inv meets
  | sendOtp otp =>
    obtain rfl := Option.some.inj taken
    exact sendOtp_inv inv
  | load id guess =>
    obtain ⟨idle, result⟩ := Option.ite_none_right_eq_some.mp taken
    split at result
    · obtain rfl := Option.some.inj result
      refine setCall_inv_idle inv ?_ ?_ ?_
      · intro old member
        rw [idle] at member
        cases member
      · intro next member
        obtain rfl := Option.some.inj member
        rfl
      · intro next member
        obtain rfl := Option.some.inj member
        trivial
    · obtain rfl := Option.some.inj result
      exact inv
  | read id => exact read_inv inv meets taken
  | compare id => exact compare_inv inv taken
  | write id => exact write_inv inv taken
  | delete id => exact delete_inv inv taken
  | verify id => exact verify_inv inv taken
  | expire =>
    obtain ⟨-, result⟩ := Option.ite_none_right_eq_some.mp taken
    obtain rfl := Option.some.inj result
    exact status_inv inv
  | evict =>
    obtain rfl := Option.some.inj taken
    exact evict_inv inv

end Runs

/-- **The code is guarded** in a run whose every step meets `Meets`: it is accepted within its lifetime only,
and at most `OTP_ATTEMPTS` wrong guesses are compared with it. -/
theorem code_guarded {I H : Type} [DecidableEq I] [DecidableEq H] {otpHash : String → H} {s : State I H}
    {now expiresAt : ℕ} (reached : Reaches (step otpHash) (Meets otpHash) (State.start now expiresAt) s) :
    Guarded s := by
  have inv : Inv otpHash s :=
    reached.invariant (Inv otpHash) (Inv.start now expiresAt) fun inv meets taken => step_inv inv meets taken
  exact inv.guarded

instance decidableMeets (otpHash : String → H) (s : State Bool H) :
    ∀ action, Decidable (Meets otpHash s action)
  | .read id => inferInstanceAs (Decidable (∀ call ∈ s.calls id, ∀ entry ∈ s.cache,
      if isCode otpHash call.guess entry then entry.kept = true → s.now ≤ entry.sentAt + otpTtl
      else ∀ other, ∀ wrong ∈ s.calls other, wrong.against otpHash ≠ some entry.send))
  | .pass milliseconds => inferInstanceAs (Decidable (∀ id, ∀ call ∈ s.calls id,
      ∀ sentAt ∈ call.right otpHash, s.now + milliseconds ≤ sentAt + otpTtl))
  | .sendOtp _ | .load _ _ | .compare _ | .write _ | .delete _ | .verify _ | .expire | .evict =>
      isTrue trivial

/-- A signup of a day. -/
def signup : State Bool String := State.start 0 86400000

/-- A call with a guess that is wrong. -/
def mistyped (id : Bool) : List (Action Bool) := [.load id "000000", .read id, .compare id, .write id]

/-- A call with the code. -/
def typed (id : Bool) : List (Action Bool) := [.load id "123456", .read id, .compare id, .delete id, .verify id]

/-- A wrong guess, then the code in time. -/
def inTime : List (Action Bool) :=
  [Action.sendOtp "123456", .pass 60000] ++ mistyped false ++ [Action.pass 60000] ++ typed true

theorem code_guarded_in_time : ∃ s, run (step id) signup inTime = some s ∧ s.status = .verified ∧
    s.accepted = [(0, 120000)] ∧ Guarded s := by
  have ends : (run (step id) signup inTime).map (fun s => (s.status, s.accepted)) =
      some (.verified, [(0, 120000)]) := by
    decide
  obtain ⟨s, done, both⟩ := Option.map_eq_some_iff.mp ends
  obtain ⟨status, accepted⟩ := Prod.mk.inj both
  have meets : RunMeets (step id) (Meets id) signup inTime := by decide
  exact ⟨s, done, status, accepted, code_guarded (reaches_of_run meets done)⟩

/-- A wrong guess in the last second, and the code some minutes later. -/
def keptAlive : List (Action Bool) :=
  [Action.sendOtp "123456", .pass 599000] ++ mistyped false ++ [Action.pass 401000] ++ typed true

/-- **A code is accepted a thousand seconds after it was sent.** -/
theorem accepted_after_lifetime : ∃ s, Reaches (step id) anyStep signup s ∧
    s.accepted = [(0, 1000000)] ∧ ¬ Guarded s := by
  have ends : (run (step id) signup keptAlive).map State.accepted = some [(0, 1000000)] := by decide
  obtain ⟨s, done, accepted⟩ := Option.map_eq_some_iff.mp ends
  refine ⟨s, reaches_of_run (runMeets_of_forall fun _ _ _ => trivial) done, accepted, fun guarded => ?_⟩
  have within := guarded.1 (0, 1000000) (by rw [accepted]; exact List.mem_cons_self)
  exact absurd within (by decide)

/-- Two wrong guesses that read the cache side by side. -/
def sideBySide : List (Action Bool) :=
  [.load false "000000", .load true "111111", .read false, .read true, .compare false, .compare true,
    .write false, .write true]

/-- **Six wrong guesses are compared with the one code**, three of them counted. -/
theorem guesses_side_by_side : ∃ s, Reaches (step id) anyStep signup s ∧ s.sends = 1 ∧
    s.accepted = [] ∧ s.cache.map Entry.attempts = some 3 ∧ s.wrong 0 = 6 ∧ ¬ Guarded s := by
  have ends : (run (step id) signup (.sendOtp "123456" :: sideBySide ++ sideBySide ++ sideBySide)).map
      (fun s => (s.sends, s.accepted, s.cache.map Entry.attempts, s.wrong 0)) =
        some (1, [], some 3, 6) := by
    decide
  obtain ⟨s, done, all⟩ := Option.map_eq_some_iff.mp ends
  obtain ⟨sends, accepted, attempts, wrong⟩ : s.sends = 1 ∧ s.accepted = [] ∧
      s.cache.map Entry.attempts = some 3 ∧ s.wrong 0 = 6 := by
    simpa only [Prod.mk.injEq] using all
  refine ⟨s, reaches_of_run (runMeets_of_forall fun _ _ _ => trivial) done, sends, accepted, attempts, wrong,
    fun guarded => ?_⟩
  have few := guarded.2 0
  rw [wrong] at few
  exact absurd few (by decide)

end SuiteCloud.Hosting.Codes
