/-
**Programs that ask and write.**

A program of a worker that keeps a record: it asks others and goes on by what they answer, writes the record,
keeps what it has written, and may raise. What is not kept is lost when the worker dies, which it may at any
time; an exception leaves the record as written, for the caller to take back what is not kept.

* `Program`, `Program.bind` — a program, as the tree of what it may be answered.
* `Ends` — how a run of it ends, with what is kept and what is written by then.
* `wp` — **the weakest precondition**: what must hold before, for every end to meet a condition.
* `wp_bind` — one program after another; `Ends.meets` — **what is proved by `wp` holds of every run**.
* `Frames`, `Frames.wp` — what every write of a program leaves.
-/

import Mathlib.Tactic.Common

namespace SuiteCloud.Library

/-- **A program** over a record `S` that raises `E` and returns `α`. -/
inductive Program (S E α : Type) : Type 1
  | done (value : α)
  | raises (error : E)
  | asks (A : Type) (next : A → Program S E α)
  | reads (next : S → Program S E α)
  | writes (change : S → S) (next : Program S E α)
  /-- What is written so far is kept. -/
  | keeps (next : Program S E α)

/-- How a run ends. -/
inductive Outcome (E α : Type)
  | value (value : α)
  | error (error : E)
  | died

namespace Program

variable {S E α β : Type}

/-- One program after another. -/
def bind : Program S E α → (α → Program S E β) → Program S E β
  | done value, after => after value
  | raises error, _ => .raises error
  | asks A next, after => .asks A fun answer => (next answer).bind after
  | reads next, after => .reads fun record => (next record).bind after
  | writes change next, after => .writes change (next.bind after)
  | keeps next, after => .keeps (next.bind after)

instance : Monad (Program S E) where
  pure := done
  bind := bind

/-- An answer of a kind. -/
def ask (A : Type) : Program S E A := .asks A .done

def read : Program S E S := .reads .done

def write (change : S → S) : Program S E Unit := .writes change (.done ())

def keep : Program S E Unit := .keeps (.done ())

/-- **A run**: from what is kept and what is written, to how it ends and what is kept and written then. -/
inductive Ends : Program S E α → S → S → Outcome E α → S → S → Prop
  | done (value : α) (kept now : S) : Ends (.done value) kept now (.value value) kept now
  | raises (error : E) (kept now : S) : Ends (.raises error) kept now (.error error) kept now
  | asks {A : Type} {next : A → Program S E α} {kept now kept' now' : S} {outcome : Outcome E α} (answer : A) :
      Ends (next answer) kept now outcome kept' now' → Ends (.asks A next) kept now outcome kept' now'
  | reads {next : S → Program S E α} {kept now kept' now' : S} {outcome : Outcome E α} :
      Ends (next now) kept now outcome kept' now' → Ends (.reads next) kept now outcome kept' now'
  | writes {change : S → S} {next : Program S E α} {kept now kept' now' : S} {outcome : Outcome E α} :
      Ends next kept (change now) outcome kept' now' → Ends (.writes change next) kept now outcome kept' now'
  | keeps {next : Program S E α} {kept now kept' now' : S} {outcome : Outcome E α} :
      Ends next now now outcome kept' now' → Ends (.keeps next) kept now outcome kept' now'
  | dies (program : Program S E α) (kept now : S) : Ends program kept now .died kept kept

/-! ### Preconditions -/

/-- **The weakest precondition** of a program: with `Q` of what is kept and written where it ends. It may die
wherever something is kept. -/
def wp : Program S E α → (Outcome E α → S → S → Prop) → S → S → Prop
  | .done value, Q, kept, now => Q (.value value) kept now
  | .raises error, Q, kept, now => Q (.error error) kept now
  | .asks _ next, Q, kept, now => ∀ answer, (next answer).wp Q kept now
  | .reads next, Q, kept, now => (next now).wp Q kept now
  | .writes change next, Q, kept, now => next.wp Q kept (change now)
  | .keeps next, Q, _, now => Q .died now now ∧ next.wp Q now now

variable {program : Program S E α} {after : α → Program S E β} {Q : Outcome E α → S → S → Prop}
  {R : Outcome E β → S → S → Prop} {kept now kept' now' : S} {outcome : Outcome E α}

/-- What follows a program: another one where it returns, nothing where it raises or the worker died. -/
def Outcome.goesOn (after : α → Program S E β) (R : Outcome E β → S → S → Prop) :
    Outcome E α → S → S → Prop
  | .value value, kept, now => (after value).wp R kept now
  | .error error, kept, now => R (.error error) kept now
  | .died, kept, now => R .died kept now

theorem wp_bind : (program.bind after).wp R kept now ↔ program.wp (Outcome.goesOn after R) kept now := by
  induction program generalizing kept now with
  | done value => rfl
  | raises error => rfl
  | asks A next ih => exact forall_congr' fun answer => ih answer
  | reads next ih => exact ih now
  | writes change next ih => exact ih
  | keeps next ih => exact and_congr_right fun _ => ih

@[simp] theorem wp_bind_iff :
    (program >>= after).wp R kept now ↔ program.wp (Outcome.goesOn after R) kept now := wp_bind

@[simp] theorem wp_pure (value : α) :
    (pure value : Program S E α).wp Q kept now ↔ Q (.value value) kept now := Iff.rfl

@[simp] theorem wp_ask {A : Type} {Q : Outcome E A → S → S → Prop} :
    (ask A : Program S E A).wp Q kept now ↔ ∀ answer, Q (.value answer) kept now := Iff.rfl

@[simp] theorem wp_read {Q : Outcome E S → S → S → Prop} :
    (read : Program S E S).wp Q kept now ↔ Q (.value now) kept now := Iff.rfl

@[simp] theorem wp_write {Q : Outcome E Unit → S → S → Prop} (change : S → S) :
    (write change : Program S E Unit).wp Q kept now ↔ Q (.value ()) kept (change now) := Iff.rfl

@[simp] theorem wp_keep {Q : Outcome E Unit → S → S → Prop} :
    (keep : Program S E Unit).wp Q kept now ↔ Q .died now now ∧ Q (.value ()) now now := Iff.rfl

@[simp] theorem goesOn_value {value : α} :
    Outcome.goesOn after R (.value value) kept now ↔ (after value).wp R kept now := Iff.rfl

@[simp] theorem goesOn_error {error : E} :
    Outcome.goesOn after R (.error error) kept now ↔ R (.error error) kept now := Iff.rfl

@[simp] theorem goesOn_died : Outcome.goesOn after R .died kept now ↔ R .died kept now := Iff.rfl

/-- **What is proved by `wp` holds of every run**, if it holds where the worker dies at once. -/
theorem Ends.meets (ends : Ends program kept now outcome kept' now') (lost : Q .died kept kept)
    (holds : program.wp Q kept now) : Q outcome kept' now' := by
  induction ends with
  | done value kept now => exact holds
  | raises error kept now => exact holds
  | asks answer _ ih => exact ih lost (holds answer)
  | reads _ ih => exact ih lost holds
  | writes _ ih => exact ih lost holds
  | keeps _ ih => exact ih holds.1 holds.2
  | dies => exact lost

/-! ### Frames -/

/-- **Every write of a program leaves it**, where it is answered and reads whatever. -/
def Frames (P : S → Prop) : Program S E α → Prop
  | .done _ => True
  | .raises _ => True
  | .asks _ next => ∀ answer, (next answer).Frames P
  | .reads next => ∀ record, P record → (next record).Frames P
  | .writes change next => (∀ record, P record → P (change record)) ∧ next.Frames P
  | .keeps next => next.Frames P

theorem frames_read {P : S → Prop} : (read : Program S E S).Frames P := fun _ _ => trivial

theorem frames_write {P : S → Prop} {change : S → S} (leaves : ∀ record, P record → P (change record)) :
    (write change : Program S E Unit).Frames P := ⟨leaves, trivial⟩

theorem frames_keep {P : S → Prop} : (keep : Program S E Unit).Frames P := trivial

theorem frames_bind {P : S → Prop} (first : program.Frames P) (later : ∀ value, (after value).Frames P) :
    (program.bind after).Frames P := by
  induction program with
  | done value => exact later value
  | raises error => trivial
  | asks A next ih => exact fun answer => ih answer (first answer)
  | reads next ih => exact fun record holds => ih record (first record holds)
  | writes change next ih => exact ⟨first.1, ih first.2⟩
  | keeps next ih => exact ih first

/-- **What every write leaves** holds wherever the program ends. -/
theorem Frames.wp {P : S → Prop} (frames : program.Frames P) (kept' : P kept) (now' : P now) :
    program.wp (fun _ kept now => P kept ∧ P now) kept now := by
  induction program generalizing kept now with
  | done value => exact ⟨kept', now'⟩
  | raises error => exact ⟨kept', now'⟩
  | asks A next ih => exact fun answer => ih answer (frames answer) kept' now'
  | reads next ih => exact ih now (frames now now') kept' now'
  | writes change next ih => exact ih frames.2 kept' (frames.1 now now')
  | keeps next ih => exact ⟨⟨now', now'⟩, ih frames now' now'⟩

theorem Frames.ends {P : S → Prop} (frames : program.Frames P) (ends : Ends program kept now outcome kept' now')
    (before : P kept) (here : P now) : P kept' ∧ P now' :=
  ends.meets (Q := fun _ kept now => P kept ∧ P now) ⟨before, before⟩ (frames.wp before here)

end Program

end SuiteCloud.Library
