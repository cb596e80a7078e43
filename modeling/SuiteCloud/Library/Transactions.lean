/-
**Scripts that lock rows, beside others that do.**

The jobs of an application run beside each other. Each is a script: it asks others and goes on by what they
answer, reads rows, locks them, writes versions of its own, takes these back, and commits. What it has written
nobody else sees, and the rows it has locked nobody else writes, until it commits, ends or dies.

* `Script`, `Script.handle` — a script, as the tree of what it may be answered and read.
* `System.step` — one job takes its next step, or dies; a job starts.
* `Contract` — what every committed world meets, what every change of it keeps, what the outside promises.
* `Contract.wp` — **the weakest precondition of a script among others**: at each step the others may have
  committed whatever the contract allows, except to the rows the script has locked.
* `Contract.safe` — **the rule**: where every script that may start meets the contract, every run does.
-/

import SuiteCloud.Library.RowLock
import SuiteCloud.Library.Transition

set_option linter.unusedSectionVars false

namespace SuiteCloud.Library

/-- **A script** over rows `Row`, which asks `Answer`, raises `E` and returns `α`. -/
inductive Script {K C : Type} (Row : K → Type) (Answer : C → Type) (E α : Type) : Type
  | done (value : α)
  | raises (error : E)
  | asks (call : C) (next : Answer call → Script Row Answer E α)
  /-- Its own version of the row, or the committed one. -/
  | reads (key : K) (next : Row key → Script Row Answer E α)
  /-- A locking read. -/
  | locks (key : K) (next : Row key → Script Row Answer E α)
  | writes (key : K) (change : Row key → Row key) (next : Script Row Answer E α)
  /-- A rollback to a savepoint that stands before the first write since the last commit. -/
  | undoes (next : Script Row Answer E α)
  | commits (next : Script Row Answer E α)

namespace Script

variable {K C : Type} {Row : K → Type} {Answer : C → Type} {E E' α β : Type}

/-- One script after another, where it returns and where it raises. -/
def handle (onValue : α → Script Row Answer E' β) (onError : E → Script Row Answer E' β) :
    Script Row Answer E α → Script Row Answer E' β
  | done value => onValue value
  | raises error => onError error
  | asks call next => .asks call fun answer => (next answer).handle onValue onError
  | reads key next => .reads key fun row => (next row).handle onValue onError
  | locks key next => .locks key fun row => (next row).handle onValue onError
  | writes key change next => .writes key change (next.handle onValue onError)
  | undoes next => .undoes (next.handle onValue onError)
  | commits next => .commits (next.handle onValue onError)

instance : Monad (Script Row Answer E) where
  pure := done
  bind script after := script.handle after .raises

/-- What is raised is handled. -/
def catching (script : Script Row Answer E α) (handler : E → Script Row Answer E' α) :
    Script Row Answer E' α := script.handle .done handler

def ask (call : C) : Script Row Answer E (Answer call) := .asks call .done

def read (key : K) : Script Row Answer E (Row key) := .reads key .done

def lock (key : K) : Script Row Answer E (Row key) := .locks key .done

def write (key : K) (change : Row key → Row key) : Script Row Answer E Unit := .writes key change (.done ())

def undo : Script Row Answer E Unit := .undoes (.done ())

def commit : Script Row Answer E Unit := .commits (.done ())

def raise (error : E) : Script Row Answer E α := .raises error

end Script

/-! ## Jobs beside each other -/

/-- What everybody sees: the committed rows, and what was asked so far. -/
structure World {K : Type} (Row : K → Type) (C : Type) where
  rows : ∀ key, Row key
  calls : List C

/-- The rows, each with the version of the job that has it locked; the calls; and what the jobs have left to
do. -/
structure System (O : Type) {K C : Type} (Row : K → Type) (Answer : C → Type) (E : Type) where
  rows : ∀ key, RowLock O (Row key)
  calls : List C
  jobs : O → Option (Script Row Answer E Unit)

/-- What a job does next. -/
inductive Move {K C : Type} (Row : K → Type) (Answer : C → Type) (E : Type)
  | start (script : Script Row Answer E Unit)
  | goes
  | answered (call : C) (answer : Answer call)
  | dies

namespace System

variable {O K C : Type} [DecidableEq O] [DecidableEq K] [DecidableEq C] {Row : K → Type} {Answer : C → Type}
  {E : Type}

def world (system : System O Row Answer E) : World Row C :=
  ⟨fun key => (system.rows key).committed, system.calls⟩

/-- The job goes on with a script. -/
def goesOn (system : System O Row Answer E) (me : O) (script : Script Row Answer E Unit) :
    System O Row Answer E :=
  { system with jobs := Function.update system.jobs me (some script) }

/-- A row is locked, or written. -/
def withRow (system : System O Row Answer E) (key : K) (row : RowLock O (Row key)) : System O Row Answer E :=
  { system with rows := Function.update system.rows key row }

def called (system : System O Row Answer E) (call : C) : System O Row Answer E :=
  { system with calls := system.calls ++ [call] }

def undone (system : System O Row Answer E) (me : O) : System O Row Answer E :=
  { system with rows := fun key => (system.rows key).undo me }

def committed (system : System O Row Answer E) (me : O) : System O Row Answer E :=
  { system with rows := fun key => (system.rows key).commit me }

/-- The job is over, with what it has not committed. -/
def ended (system : System O Row Answer E) (me : O) : System O Row Answer E :=
  { system with rows := fun key => (system.rows key).release me, jobs := Function.update system.jobs me none }

/-- The next step of a job that asks nothing. -/
def goes (system : System O Row Answer E) (me : O) : Script Row Answer E Unit → Option (System O Row Answer E)
  | .done _ | .raises _ => some (system.ended me)
  | .asks _ _ => none
  | .reads key next => some (system.goesOn me (next ((system.rows key).seen me)))
  | .locks key next => ((system.rows key).lock me).map fun row =>
      (system.withRow key row).goesOn me (next ((system.rows key).seen me))
  | .writes key change next => ((system.rows key).write me change).map fun row =>
      (system.withRow key row).goesOn me next
  | .undoes next => some ((system.undone me).goesOn me next)
  | .commits next => some ((system.committed me).goesOn me next)

/-- **One step**: a job starts, takes its next step, is answered, or dies. -/
def step (system : System O Row Answer E) : O × Move Row Answer E → Option (System O Row Answer E)
  | (me, .start script) => if (system.jobs me).isNone then some (system.goesOn me script) else none
  | (me, .goes) => (system.jobs me).bind (system.goes me)
  | (me, .answered call answer) =>
      match system.jobs me with
      | some (.asks asked next) =>
          if same : call = asked then
            some ((system.called asked).goesOn me (next (same ▸ answer)))
          else none
      | _ => none
  | (me, .dies) => some (system.ended me)

/-- The versions a job has of the rows it has locked. -/
def held (system : System O Row Answer E) (me : O) (key : K) : Option (Row key) :=
  match (system.rows key).held with
  | some (owner, version) => if owner = me then some version else none
  | none => none

/-- Nobody works on the rows, and nobody was asked anything. -/
def idle (rows : ∀ key, Row key) : System O Row Answer E := ⟨fun key => .free (rows key), [], fun _ => none⟩

end System

/-! ## Contracts -/

/-- What a script sees of a world, with its own versions. -/
abbrev Held {K : Type} (Row : K → Type) := ∀ key, Option (Row key)

namespace World

variable {K C : Type} {Row : K → Type}

def seen (world : World Row C) (held : Held Row) (key : K) : Row key := (held key).getD (world.rows key)

/-- The world once the versions are committed. -/
def merged (world : World Row C) (held : Held Row) : World Row C := ⟨world.seen held, world.calls⟩

def asked (world : World Row C) (call : C) : World Row C := ⟨world.rows, world.calls ++ [call]⟩

/-- Another row in its place. -/
def set [DecidableEq K] (world : World Row C) (key : K) (row : Row key) : World Row C :=
  ⟨Function.update world.rows key row, world.calls⟩

@[simp] theorem calls_asked (world : World Row C) (call : C) :
    (world.asked call).calls = world.calls ++ [call] := rfl

@[simp] theorem rows_merged (world : World Row C) (held : Held Row) (key : K) :
    (world.merged held).rows key = world.seen held key := rfl

@[simp] theorem rows_set_self [DecidableEq K] (world : World Row C) (key : K) (row : Row key) :
    (world.set key row).rows key = row := Function.update_self ..

theorem rows_set_other [DecidableEq K] (world : World Row C) {key here : K} (other : here ≠ key)
    (row : Row key) :
    (world.set key row).rows here = world.rows here := Function.update_of_ne other ..

theorem seen_of_none {world : World Row C} {held : Held Row} {key : K} (free : held key = none) :
    world.seen held key = world.rows key := by
  rw [seen, free]
  rfl

theorem seen_of_some {world : World Row C} {held : Held Row} {key : K} {row : Row key}
    (locked : held key = some row) : world.seen held key = row := by
  rw [seen, locked]
  rfl

end World

/-- A row is locked, with a version of it. -/
def Held.hold {K : Type} [DecidableEq K] {Row : K → Type} (held : Held Row) (key : K) (row : Row key) :
    Held Row :=
  Function.update held key (some row)

/-- Every version is the committed one again. -/
def Held.reset {K C : Type} {Row : K → Type} (held : Held Row) (world : World Row C) : Held Row :=
  fun key => (held key).map fun _ => world.rows key

/-- What is read again is only what is held. -/
theorem Held.reset_congr {K C : Type} {Row : K → Type} {held : Held Row} {now before : World Row C}
    (same : ∀ key, (held key).isSome → now.rows key = before.rows key) : held.reset now =
      held.reset before := by
  funext key
  unfold Held.reset
  cases locked : held key with
  | none => rfl
  | some row =>
    rw [Option.map_some, Option.map_some, same key (by rw [locked]; rfl)]

/-- **A contract**: what every committed world meets, what every change of it keeps, and what the outside
promises to answer. -/
structure Contract {K C : Type} (Row : K → Type) (Answer : C → Type) where
  Holds : World Row C → Prop
  Keeps : World Row C → World Row C → Prop
  Promised : ∀ call, Answer call → Prop
  refl : ∀ world, Keeps world world
  trans : ∀ {first second third}, Keeps first second → Keeps second third → Keeps first third

namespace Contract

variable {K C : Type} [DecidableEq K] {Row : K → Type} {Answer : C → Type} {E E' α β : Type}

section

variable (contract : Contract Row Answer)

/-- **What the others may have done** to the world since, of what a script does not hold. -/
structure Others (held : Held Row) (before now : World Row C) : Prop where
  holds : contract.Holds now
  keeps : contract.Keeps before now
  rows : ∀ key, (held key).isSome → now.rows key = before.rows key

/-- **The weakest precondition** of a script among others, with `Q` of how it ends. The world is one it has
seen; it may be another one by the time of its next step. -/
def wp : Script Row Answer E α → (Except E α → World Row C → Held Row → Prop) → World Row C → Held Row → Prop
  | .done value, Q, world, held => Q (.ok value) world held
  | .raises error, Q, world, held => Q (.error error) world held
  | .asks call next, Q, world, held => ∀ now, contract.Others held world now →
      contract.Holds (now.asked call) ∧ contract.Keeps now (now.asked call) ∧
        ∀ answer, contract.Promised call answer → wp (next answer) Q (now.asked call) held
  | .reads key next, Q, world, held => ∀ now, contract.Others held world now →
      wp (next (now.seen held key)) Q now held
  | .locks key next, Q, world, held => ∀ now, contract.Others held world now →
      wp (next (now.seen held key)) Q now (held.hold key (now.seen held key))
  | .writes key change next, Q, world, held => ∀ now, contract.Others held world now →
      wp next Q now (held.hold key (change (now.seen held key)))
  | .undoes next, Q, world, held => wp next Q world (held.reset world)
  | .commits next, Q, world, held => ∀ now, contract.Others held world now →
      contract.Holds (now.merged held) ∧ contract.Keeps now (now.merged held) ∧
        wp next Q (now.merged held) fun _ => none

end

variable {contract : Contract Row Answer} {held : Held Row} {before now later world : World Row C}

theorem Others.refl (holds : contract.Holds world) : contract.Others held world world :=
  ⟨holds, contract.refl world, fun _ _ => rfl⟩

theorem Others.trans (first : contract.Others held before now) (second : contract.Others held now later) :
    contract.Others held before later :=
  ⟨second.holds, contract.trans first.keeps second.keeps,
    fun key locked => (second.rows key locked).trans (first.rows key locked)⟩

/-- Of a row, either the script sees its own version and nobody committed another, or it sees what is
committed. -/
theorem Others.seen_or (others : contract.Others held before now) (key : K) :
    now.seen held key = before.seen held key ∧ now.rows key = before.rows key ∨
      now.seen held key = now.rows key ∧ before.seen held key = before.rows key := by
  cases locked : held key with
  | none => exact .inr ⟨World.seen_of_none locked, World.seen_of_none locked⟩
  | some row =>
    refine .inl ⟨?_, others.rows key (by rw [locked]; rfl)⟩
    rw [World.seen_of_some locked, World.seen_of_some locked]

/-! ### One script after another -/

/-- What follows a script: one script where it returns, another where it raises. -/
def follows (contract : Contract Row Answer) (onValue : α → Script Row Answer E' β)
    (onError : E → Script Row Answer E' β) (Q : Except E' β → World Row C → Held Row → Prop) :
    Except E α → World Row C → Held Row → Prop
  | .ok value => contract.wp (onValue value) Q
  | .error error => contract.wp (onError error) Q

theorem wp_handle {script : Script Row Answer E α} {onValue : α → Script Row Answer E' β}
    {onError : E → Script Row Answer E' β} {Q : Except E' β → World Row C → Held Row → Prop} :
    contract.wp (script.handle onValue onError) Q world held ↔
      contract.wp script (contract.follows onValue onError Q) world held := by
  induction script generalizing world held with
  | done value => rfl
  | raises error => rfl
  | asks call next ih =>
    exact forall₂_congr fun now _ => and_congr_right fun _ => and_congr_right fun _ =>
      forall₂_congr fun answer _ => ih answer
  | reads key next ih => exact forall₂_congr fun now _ => ih (now.seen held key)
  | locks key next ih => exact forall₂_congr fun now _ => ih (now.seen held key)
  | writes key change next ih => exact forall₂_congr fun _ _ => ih
  | undoes next ih => exact ih
  | commits next ih =>
    exact forall₂_congr fun _ _ => and_congr_right fun _ => and_congr_right fun _ => ih

section

variable {Q : Except E α → World Row C → Held Row → Prop} {R : Except E β → World Row C → Held Row → Prop}
  {script : Script Row Answer E α} {after : α → Script Row Answer E β}

@[simp] theorem wp_bind : contract.wp (script >>= after) R world held ↔
    contract.wp script (contract.follows after .raises R) world held := wp_handle

@[simp] theorem wp_catching {handler : E → Script Row Answer E' α}
    {R : Except E' α → World Row C → Held Row → Prop} : contract.wp (script.catching handler) R world held ↔
    contract.wp script (contract.follows .done handler R) world held := wp_handle

@[simp] theorem follows_ok {onValue : α → Script Row Answer E' β} {onError : E → Script Row Answer E' β}
    {R : Except E' β → World Row C → Held Row → Prop} {value : α} :
    contract.follows onValue onError R (.ok value) world held ↔ contract.wp (onValue value) R world held :=
  Iff.rfl

@[simp] theorem wp_pure (value : α) :
    contract.wp (pure value : Script Row Answer E α) Q world held ↔ Q (.ok value) world held := Iff.rfl

/-- **A weaker condition.** -/
theorem wp_mono {Q' : Except E α → World Row C → Held Row → Prop}
    (weaker : ∀ outcome world held, Q outcome world held → Q' outcome world held)
    (holds : contract.wp script Q world held) : contract.wp script Q' world held := by
  induction script generalizing world held with
  | done value => exact weaker _ _ _ holds
  | raises error => exact weaker _ _ _ holds
  | asks call next ih =>
    intro now others
    obtain ⟨kept, keeps, answered⟩ := holds now others
    exact ⟨kept, keeps, fun answer promised => ih answer (answered answer promised)⟩
  | reads key next ih => exact fun now others => ih _ (holds now others)
  | locks key next ih => exact fun now others => ih _ (holds now others)
  | writes key change next ih => exact fun now others => ih (holds now others)
  | undoes next ih => exact ih holds
  | commits next ih =>
    intro now others
    obtain ⟨kept, keeps, goesOn⟩ := holds now others
    exact ⟨kept, keeps, ih goesOn⟩

end

end Contract

/-! ## Scripts that are sane throughout

Where what a script has written might be committed at any time, its commits need no proof of their own. -/

namespace World

variable {K C : Type} {Row : K → Type} {world : World Row C} {held : Held Row}

theorem merged_reset : world.merged (held.reset world) = world := by
  unfold merged
  congr 1
  funext key
  unfold seen Held.reset
  cases held key <;> rfl

theorem merged_hold [DecidableEq K] (key : K) (row : Row key) :
    world.merged (held.hold key row) = (world.merged held).set key row := by
  unfold merged set
  congr 1
  funext here
  by_cases same : here = key
  · subst same
    simp only [seen, Held.hold, Function.update_self, Option.getD_some]
  · simp only [seen, Held.hold, Function.update_of_ne same]

theorem merged_hold_seen [DecidableEq K] (key : K) :
    world.merged (held.hold key (world.seen held key)) = world.merged held := by
  rw [merged_hold]
  exact congrArg (World.mk · world.calls) (Function.update_eq_self key (world.seen held))

theorem seen_hold_self [DecidableEq K] (key : K) (row : Row key) : world.seen (held.hold key row) key = row :=
  seen_of_some (Function.update_self ..)

end World

namespace Contract

variable {K C : Type} [DecidableEq K] {Row : K → Type} {Answer : C → Type} {E α : Type}
  (contract : Contract Row Answer)

/-- The world is as it must be, and would be with what the script has written. -/
structure Sane (world : World Row C) (held : Held Row) : Prop where
  holds : contract.Holds world
  merged : contract.Holds (world.merged held)
  keeps : contract.Keeps world (world.merged held)

/-- Being sane is nothing the others can take away. -/
def IsSteady : Prop :=
  ∀ {held before now}, contract.Others held before now → contract.Sane before held → contract.Sane now held

/-- A call that the contract does not look at. -/
def IsSilent (call : C) : Prop :=
  ∀ world, contract.Holds world → contract.Holds (world.asked call) ∧ contract.Keeps world
    (world.asked call) ∧
    ∀ held, contract.Keeps world (world.merged held) →
      contract.Keeps (world.asked call) ((world.merged held).asked call)

variable {contract} {world : World Row C} {held : Held Row} {key : K}

theorem Sane.start (holds : contract.Holds world) : contract.Sane world fun _ => none :=
  ⟨holds, holds, contract.refl world⟩

theorem Sane.hold_seen (sane : contract.Sane world held) (key : K) :
    contract.Sane world (held.hold key (world.seen held key)) := by
  refine ⟨sane.holds, ?_, ?_⟩
  · rw [World.merged_hold_seen]
    exact sane.merged
  · rw [World.merged_hold_seen]
    exact sane.keeps

theorem Sane.set (sane : contract.Sane world held) {row : Row key}
    (holds : contract.Holds ((world.merged held).set key row))
    (keeps : contract.Keeps (world.merged held) ((world.merged held).set key row)) :
    contract.Sane world (held.hold key row) := by
  rw [← World.merged_hold] at holds keeps
  exact ⟨sane.holds, holds, contract.trans sane.keeps keeps⟩

theorem Sane.reset (sane : contract.Sane world held) : contract.Sane world (held.reset world) := by
  refine ⟨sane.holds, ?_, ?_⟩
  · rw [World.merged_reset]
    exact sane.holds
  · rw [World.merged_reset]
    exact contract.refl world

section

variable (steady : contract.IsSteady)
include steady

theorem Sane.read {Q : Except E (Row key) → World Row C → Held Row → Prop} (sane : contract.Sane world held)
    (goesOn : ∀ now, contract.Others held world now → contract.Sane now held →
      Q (.ok (now.seen held key)) now held) : contract.wp (Script.read key) Q world held :=
  fun now others => goesOn now others (steady others sane)

theorem Sane.lock {Q : Except E (Row key) → World Row C → Held Row → Prop} (sane : contract.Sane world held)
    (goesOn : ∀ now, contract.Others held world now →
      contract.Sane now (held.hold key (now.seen held key)) →
      Q (.ok (now.seen held key)) now (held.hold key (now.seen held key))) :
    contract.wp (Script.lock key) Q world held :=
  fun now others => goesOn now others ((steady others sane).hold_seen key)

theorem Sane.write {change : Row key → Row key} {Q : Except E Unit → World Row C → Held Row → Prop}
    (sane : contract.Sane world held)
    (kept : ∀ now, contract.Others held world now → contract.Sane now held →
      contract.Sane now (held.hold key (change (now.seen held key))))
    (goesOn : ∀ now, contract.Others held world now →
      contract.Sane now (held.hold key (change (now.seen held key))) →
      Q (.ok ()) now (held.hold key (change (now.seen held key)))) :
    contract.wp (Script.write key change) Q world held :=
  fun now others => goesOn now others (kept now others (steady others sane))

theorem Sane.commit {Q : Except E Unit → World Row C → Held Row → Prop} (sane : contract.Sane world held)
    (goesOn : ∀ now, contract.Others held world now → contract.Sane now held →
      contract.Sane (now.merged held) (fun _ => none) → Q (.ok ()) (now.merged held) fun _ => none) :
    contract.wp Script.commit Q world held := by
  intro now others
  have sane := steady others sane
  exact ⟨sane.merged, sane.keeps, goesOn now others sane (.start sane.merged)⟩

theorem Sane.ask {call : C} {Q : Except E (Answer call) → World Row C → Held Row → Prop}
    (silent : contract.IsSilent call) (sane : contract.Sane world held)
    (goesOn : ∀ now, contract.Others held world now → contract.Sane now held →
      ∀ answer, contract.Promised call answer → Q (.ok answer) now held) :
    contract.wp (Script.ask call) Q world held := by
  intro now others
  have sane := steady others sane
  obtain ⟨holds, keeps, keepsToo⟩ := silent now sane.holds
  obtain ⟨merged, -, -⟩ := silent _ sane.merged
  exact ⟨holds, keeps, goesOn _ (others.trans ⟨holds, keeps, fun _ _ => rfl⟩)
    ⟨holds, merged, keepsToo held sane.keeps⟩⟩

end

end Contract

/-! ## Scripts that stay within bounds

Where every row a script may see, write it may make and call it may ask is harmless, whatever it is
answered, no more is to be said of it. -/

namespace Script

variable {K C : Type} {Row : K → Type} {Answer : C → Type} {E E' α β : Type}

section

variable (sees : ∀ key, Row key → Prop) (writes : ∀ key, (Row key → Row key) → Prop) (asks : C → Prop)

/-- **A script within bounds**: of the rows it sees, the changes it writes and the calls it asks. -/
def Within : Script Row Answer E α → Prop
  | .done _ | .raises _ => True
  | .asks call next => asks call ∧ ∀ answer, (next answer).Within
  | .reads key next | .locks key next => ∀ row, sees key row → (next row).Within
  | .writes key change next => writes key change ∧ next.Within
  | .undoes next | .commits next => next.Within

end

variable {sees : ∀ key, Row key → Prop} {writes : ∀ key, (Row key → Row key) → Prop} {asks : C → Prop}

theorem within_handle {script : Script Row Answer E α} {onValue : α → Script Row Answer E' β}
    {onError : E → Script Row Answer E' β} (first : script.Within sees writes asks)
    (value : ∀ value, (onValue value).Within sees writes asks)
    (error : ∀ error, (onError error).Within sees writes asks) :
    (script.handle onValue onError).Within sees writes asks := by
  induction script with
  | done result => exact value result
  | raises raised => exact error raised
  | asks call next ih => exact ⟨first.1, fun answer => ih answer (first.2 answer)⟩
  | reads key next ih => exact fun row seen => ih row (first row seen)
  | locks key next ih => exact fun row seen => ih row (first row seen)
  | writes key change next ih => exact ⟨first.1, ih first.2⟩
  | undoes next ih => exact ih first
  | commits next ih => exact ih first

theorem within_bind {script : Script Row Answer E α} {after : α → Script Row Answer E β}
    (first : script.Within sees writes asks) (later : ∀ value, (after value).Within sees writes asks) :
    (script >>= after).Within sees writes asks := within_handle first later fun _ => trivial

end Script

theorem Contract.wp_of_within {K C : Type} [DecidableEq K] {Row : K → Type} {Answer : C → Type} {E α : Type}
    {contract : Contract Row Answer} {sees : ∀ key, Row key → Prop}
    {writes : ∀ key, (Row key → Row key) → Prop} {asks : C → Prop} (steady : contract.IsSteady)
    (silent : ∀ call, asks call → contract.IsSilent call)
    (seen : ∀ world held, contract.Sane world held → ∀ key, sees key (world.seen held key))
    (harmless : ∀ world held, contract.Sane world held → ∀ key change, writes key change →
      contract.Sane world (held.hold key (change (world.seen held key))))
    {script : Script Row Answer E α} {world : World Row C} {held : Held Row}
    (within : script.Within sees writes asks) (sane : contract.Sane world held) :
    contract.wp script (fun _ now held => contract.Sane now held) world held := by
  induction script generalizing world held with
  | done value => exact sane
  | raises error => exact sane
  | asks call next ih =>
    show contract.wp (Script.ask call >>= next) _ _ _
    rw [wp_bind]
    exact sane.ask steady (silent call within.1) fun now others sane answer _ => ih answer
      (within.2 answer) sane
  | reads key next ih =>
    show contract.wp (Script.read key >>= next) _ _ _
    rw [wp_bind]
    exact sane.read steady fun now others sane => ih _ (within _ (seen now held sane key)) sane
  | locks key next ih =>
    show contract.wp (Script.lock key >>= next) _ _ _
    rw [wp_bind]
    exact sane.lock steady fun now others locked => ih _
      (within _ (seen now held (steady others sane) key)) locked
  | writes key change next ih =>
    show contract.wp (Script.write key change >>= fun _ => next) _ _ _
    rw [wp_bind]
    exact sane.write steady (fun now others sane => harmless now held sane key change within.1)
      fun now others sane => ih within.2 sane
  | undoes next ih => exact ih within sane.reset
  | commits next ih =>
    show contract.wp (Script.commit >>= fun _ => next) _ _ _
    rw [wp_bind]
    exact sane.commit steady fun now others sane committed => ih within committed

/-! ## Every run -/

namespace System

variable {O K C : Type} [DecidableEq O] [DecidableEq K] [DecidableEq C] {Row : K → Type} {Answer : C → Type}
  {E : Type} {system after : System O Row Answer E} {me other : O} {key : K}

theorem held_eq_some {row : Row key} :
    system.held me key = some row ↔ (system.rows key).held = some (me, row) := by
  unfold held
  cases (system.rows key).held with
  | none => simp
  | some version =>
    obtain ⟨owner, version⟩ := version
    by_cases mine : owner = me
    · simp [mine]
    · simp [mine]

/-- What a job sees of a row. -/
theorem seen_eq : (system.rows key).seen me = system.world.seen (system.held me) key := by
  cases found : system.held me key with
  | some row => rw [World.seen_of_some found, RowLock.seen_of_held (held_eq_some.mp found)]
  | none =>
    rw [World.seen_of_none found]
    refine RowLock.seen_of_not_held fun version locked => ?_
    rw [held_eq_some.mpr locked] at found
    cases found

/-- The versions of a job, from how each row is locked. -/
theorem held_congr (same : ∀ key row, (after.rows key).held = some (me, row) ↔
    (system.rows key).held = some (me, row)) : after.held me = system.held me := by
  funext key
  refine Option.ext fun row => ?_
  exact held_eq_some.trans ((same key row).trans held_eq_some.symm)

@[simp] theorem world_goesOn (script : Script Row Answer E Unit) :
    (system.goesOn me script).world = system.world := rfl

@[simp] theorem held_goesOn (script : Script Row Answer E Unit) :
    (system.goesOn me script).held other = system.held other := rfl

/-- What one job wrote of a row is in nobody else's version. -/
theorem held_withRow_other (foreign : other ≠ me) {change : Row key → Row key} {row : RowLock O (Row key)}
    (written : (system.rows key).write me change = some row) :
    (system.withRow key row).held other = system.held other := by
  refine held_congr fun here version => ?_
  by_cases same : here = key
  · subst same
    simp only [withRow, Function.update_self]
    exact RowLock.write_held_other foreign written
  · simp only [withRow, Function.update_of_ne same]

theorem held_withRow_self {change : Row key → Row key} {row : RowLock O (Row key)}
    (written : (system.rows key).write me change = some row) :
    (system.withRow key row).held me =
      Held.hold (system.held me) key (change (system.world.seen (system.held me) key)) := by
  funext here
  by_cases same : here = key
  · subst same
    rw [Held.hold, Function.update_self]
    refine held_eq_some.mpr ?_
    simp only [withRow, Function.update_self]
    rw [RowLock.held_write written, RowLock.latest_eq_seen (RowLock.write_eq_some.mp written).1, seen_eq]
  · rw [Held.hold, Function.update_of_ne same]
    unfold held
    simp only [withRow, Function.update_of_ne same]

theorem world_withRow {change : Row key → Row key} {row : RowLock O (Row key)}
    (written : (system.rows key).write me change = some row) :
    (system.withRow key row).world = system.world := by
  delta world
  congr 1
  funext here
  by_cases same : here = key
  · subst same
    simp only [withRow, Function.update_self]
    exact RowLock.committed_write written
  · simp only [withRow, Function.update_of_ne same]

@[simp] theorem world_undone : (system.undone me).world = system.world := by
  unfold world undone
  simp only [RowLock.committed_undo]

@[simp] theorem world_ended : (system.ended me).world = system.world := by
  unfold world ended
  simp only [RowLock.committed_release]

theorem held_undone_other (foreign : other ≠ me) : (system.undone me).held other = system.held other :=
  held_congr fun _ _ => RowLock.undo_held_other foreign

theorem held_ended_other (foreign : other ≠ me) : (system.ended me).held other = system.held other :=
  held_congr fun _ _ => RowLock.release_held_other foreign

theorem held_committed_other (foreign : other ≠ me) : (system.committed me).held other = system.held other :=
  held_congr fun _ _ => RowLock.commit_held_other foreign

theorem held_undone_self : (system.undone me).held me = Held.reset (system.held me) system.world := by
  funext key
  refine Option.ext fun row => ?_
  rw [held_eq_some, Held.reset, Option.map_eq_some_iff]
  simp only [undone, RowLock.held_undo, held_eq_some]
  by_cases mine : (system.rows key).isHeldBy me
  · obtain ⟨version, locked⟩ := RowLock.isHeldBy_iff.mp mine
    simp [mine, locked, world]
  · rw [if_neg mine]
    constructor
    · exact fun locked => absurd (RowLock.isHeldBy_iff.mpr ⟨row, locked⟩) mine
    · rintro ⟨version, locked, -⟩
      exact absurd (RowLock.isHeldBy_iff.mpr ⟨version, locked⟩) mine

theorem held_eq_none_of (gone : ∀ key row, (after.rows key).held ≠ some (me, row)) :
    after.held me = fun _ => none := by
  funext key
  cases found : after.held me key with
  | none => rfl
  | some row => exact absurd (held_eq_some.mp found) (gone key row)

theorem held_committed_self : (system.committed me).held me = fun _ => none :=
  held_eq_none_of fun _ _ => RowLock.not_held_commit

theorem held_ended_self : (system.ended me).held me = fun _ => none :=
  held_eq_none_of fun _ _ => RowLock.not_held_release

theorem world_committed : (system.committed me).world = system.world.merged (system.held me) := by
  unfold world committed World.merged
  congr 1
  funext key
  rw [RowLock.committed_commit_eq_seen, seen_eq]
  rfl

/-- A commit changes no row that another has locked. -/
theorem rows_committed_of_held (foreign : other ≠ me) (locked : (system.held other key).isSome) :
    (system.committed me).world.rows key = system.world.rows key := by
  obtain ⟨row, found⟩ := Option.isSome_iff_exists.mp locked
  rw [world_committed, World.rows_merged, World.seen_of_none]
  cases mine : system.held me key with
  | none => rfl
  | some version =>
    rw [held_eq_some] at found mine
    rw [found] at mine
    cases mine
    exact absurd rfl foreign

end System

namespace Contract

variable {O K C : Type} [DecidableEq O] [DecidableEq K] [DecidableEq C] {Row : K → Type} {Answer : C → Type}
  {E : Type}

section

variable (contract : Contract Row Answer)

/-- The runs a contract is about: only scripts of a kind start, and the outside keeps its promises. -/
def Admits (starts : Script Row Answer E Unit → Prop) : System O Row Answer E → O × Move Row Answer E → Prop
  | _, (_, .start script) => starts script
  | _, (_, .answered call answer) => contract.Promised call answer
  | _, (_, .goes) | _, (_, .dies) => True

/-- **What every step keeps**: the contract, and of each job that its script meets it from here on. -/
structure Sound (first : World Row C) (system : System O Row Answer E) : Prop where
  holds : contract.Holds system.world
  keeps : contract.Keeps first system.world
  jobs : ∀ me script, system.jobs me = some script → ∃ before,
    contract.Others (system.held me) before system.world ∧
      contract.wp script (fun _ _ _ => True) before (system.held me)
  idle : ∀ me, system.jobs me = none → system.held me = fun _ => none

end

variable {contract : Contract Row Answer} {first : World Row C} {system after : System O Row Answer E}
    {me : O}
  {script : Script Row Answer E Unit}

/-- **The frame of a step**: what one job does to the world is, to every other job, what others may do. -/
theorem Sound.moves (me : O) (sound : contract.Sound first system) (holds : contract.Holds after.world)
    (keeps : contract.Keeps system.world after.world)
    (rows : ∀ other, other ≠ me → ∀ key, (system.held other key).isSome →
      after.world.rows key = system.world.rows key)
    (held : ∀ other, other ≠ me → after.held other = system.held other)
    (jobs : ∀ other, other ≠ me → after.jobs other = system.jobs other)
    (mine : ∀ script, after.jobs me = some script → ∃ before,
      contract.Others (after.held me) before after.world ∧
        contract.wp script (fun _ _ _ => True) before (after.held me))
    (ended : after.jobs me = none → after.held me = fun _ => none) : contract.Sound first after where
  holds := holds
  keeps := contract.trans sound.keeps keeps
  jobs other script running := by
    by_cases same : other = me
    · subst same
      exact mine script running
    · rw [jobs other same] at running
      obtain ⟨before, others, meets⟩ := sound.jobs other script running
      rw [held other same]
      exact ⟨before, others.trans ⟨holds, keeps, rows other same⟩, meets⟩
  idle other over' := by
    by_cases same : other = me
    · subst same
      exact ended over'
    · rw [held other same]
      rw [jobs other same] at over'
      exact sound.idle other over'

/-- A job goes on with a script that meets the contract from here. -/
theorem Sound.goesOn (sound : contract.Sound first system) (holds : contract.Holds after.world)
    (keeps : contract.Keeps system.world after.world)
    (rows : ∀ other, other ≠ me → ∀ key, (system.held other key).isSome →
      after.world.rows key = system.world.rows key)
    (held : ∀ other, other ≠ me → after.held other = system.held other)
    (jobs : after.jobs = system.jobs)
    (meets : ∃ before, contract.Others (after.held me) before after.world ∧
      contract.wp script (fun _ _ _ => True) before (after.held me)) :
    contract.Sound first (after.goesOn me script) := by
  refine sound.moves me holds keeps rows held (fun other foreign => ?_) (fun next running => ?_)
    fun gone => ?_
  · exact (Function.update_of_ne foreign _ _).trans (congrFun jobs other)
  · obtain rfl : script = next := by
      simpa [System.goesOn] using running
    exact meets
  · simp [System.goesOn] at gone

/-- A job that is over leaves the world as it is. -/
theorem Sound.ended (sound : contract.Sound first system) : contract.Sound first (system.ended me) := by
  refine sound.moves me ?_ ?_ (fun _ _ _ _ => ?_) (fun other foreign => ?_) (fun other foreign => ?_)
    (fun next running => ?_) fun _ => System.held_ended_self
  · rw [System.world_ended]
    exact sound.holds
  · rw [System.world_ended]
    exact contract.refl _
  · rw [System.world_ended]
  · exact System.held_ended_other foreign
  · exact Function.update_of_ne foreign _ _
  · simp [System.ended] at running

/-- **The next step** of a job. -/
theorem Sound.goes (sound : contract.Sound first system) (running : system.jobs me = some script)
    (taken : system.goes me script = some after) : contract.Sound first after := by
  obtain ⟨before, others, meets⟩ := sound.jobs me script running
  cases script with
  | done value =>
    cases taken
    exact sound.ended
  | raises error =>
    cases taken
    exact sound.ended
  | asks call next => cases taken
  | reads key next =>
    cases taken
    refine sound.goesOn sound.holds (contract.refl _) (fun _ _ _ _ => rfl) (fun _ _ => rfl) rfl
      ⟨system.world, .refl sound.holds, ?_⟩
    rw [System.seen_eq]
    exact meets _ others
  | locks key next =>
    obtain ⟨row, locked, rfl⟩ := Option.map_eq_some_iff.mp taken
    have same := System.world_withRow locked
    refine sound.goesOn (same ▸ sound.holds) (same ▸ contract.refl _) (fun _ _ _ _ => by rw [same])
      (fun _ foreign => System.held_withRow_other foreign locked) rfl ⟨system.world, ?_, ?_⟩
    · rw [same]
      exact .refl sound.holds
    · rw [System.held_withRow_self locked, System.seen_eq]
      exact meets _ others
  | writes key change next =>
    obtain ⟨row, written, rfl⟩ := Option.map_eq_some_iff.mp taken
    have same := System.world_withRow written
    refine sound.goesOn (same ▸ sound.holds) (same ▸ contract.refl _) (fun _ _ _ _ => by rw [same])
      (fun _ foreign => System.held_withRow_other foreign written) rfl ⟨system.world, ?_, ?_⟩
    · rw [same]
      exact .refl sound.holds
    · rw [System.held_withRow_self written]
      exact meets _ others
  | undoes next =>
    cases taken
    have same : (system.undone me).world = system.world := System.world_undone
    refine sound.goesOn (same ▸ sound.holds) (same ▸ contract.refl _) (fun _ _ _ _ => by rw [same])
      (fun _ foreign => System.held_undone_other foreign) rfl ⟨before, ?_, ?_⟩
    · rw [same, System.held_undone_self]
      exact ⟨others.holds, others.keeps, fun key locked => others.rows key
        (by simpa [Held.reset] using locked)⟩
    · rw [System.held_undone_self, Held.reset_congr others.rows]
      exact meets
  | commits next =>
    cases taken
    obtain ⟨holds, keeps, goesOn⟩ := meets _ others
    have same : (system.committed me).world = system.world.merged (system.held me) := System.world_committed
    refine sound.goesOn (same ▸ holds) (same ▸ keeps)
      (fun _ foreign _ locked => System.rows_committed_of_held foreign locked)
      (fun _ foreign => System.held_committed_other foreign) rfl ⟨_, .refl (same ▸ holds), ?_⟩
    rw [same, System.held_committed_self]
    exact goesOn

/-- **One step.** -/
theorem Sound.step {starts : Script Row Answer E Unit → Prop} {move : Move Row Answer E}
    (meets : ∀ script, starts script → ∀ world, contract.Holds world →
      contract.wp script (fun _ _ _ => True) world fun _ => none)
    (sound : contract.Sound first system) (admitted : contract.Admits starts system (me, move))
    (taken : system.step (me, move) = some after) : contract.Sound first after := by
  cases move with
  | start script =>
    simp only [System.step] at taken
    split at taken
    · next idle =>
      cases taken
      refine sound.goesOn sound.holds (contract.refl _) (fun _ _ _ _ => rfl) (fun _ _ => rfl) rfl
        ⟨system.world, .refl sound.holds, ?_⟩
      rw [sound.idle me (Option.isNone_iff_eq_none.mp idle)]
      exact meets script admitted _ sound.holds
    · cases taken
  | goes =>
    obtain ⟨script, running, taken⟩ := Option.bind_eq_some_iff.mp taken
    exact sound.goes running taken
  | dies =>
    cases taken
    exact sound.ended
  | answered call answer =>
    simp only [System.step] at taken
    split at taken
    · next asked next running =>
      split at taken
      · next same =>
        subst same
        cases taken
        obtain ⟨before, others, meets⟩ := sound.jobs me _ running
        obtain ⟨holds, keeps, answered⟩ := meets _ others
        exact sound.goesOn holds keeps (fun _ _ _ _ => rfl) (fun _ _ => rfl) rfl
          ⟨_, .refl holds, answered answer admitted⟩
      · cases taken
    · cases taken

section

variable {starts : Script Row Answer E Unit → Prop} {rows : ∀ key, Row key}
  (meets : ∀ script, starts script → ∀ world, contract.Holds world →
    contract.wp script (fun _ _ _ => True) world fun _ => none)
  (initially : contract.Holds ⟨rows, []⟩)
  (reached : Reaches System.step (contract.Admits starts) (System.idle rows : System O Row Answer E) system)
include meets initially reached

theorem sound : contract.Sound ⟨rows, []⟩ system := by
  have start : contract.Sound ⟨rows, []⟩ (System.idle rows : System O Row Answer E) :=
    { holds := initially
      keeps := contract.refl _
      jobs := fun _ _ running => by cases running
      idle := fun _ _ => funext fun _ => rfl }
  exact reached.invariant (contract.Sound ⟨rows, []⟩) start fun sound admitted taken =>
    sound.step meets admitted taken

/-- **The rule of contracts.** Where every script that may start meets the contract from wherever it holds,
every run of such scripts, however they take turns and wherever they die, meets it in every world it
reaches. -/
theorem safe : contract.Holds system.world := (sound meets initially reached).holds

/-- **Every later part of a run keeps what the contract keeps.** -/
theorem keeps (further : Reaches System.step (contract.Admits starts) system after) :
    contract.Keeps system.world after.world := by
  have here := sound meets initially reached
  have start : contract.Sound system.world system := { here with keeps := contract.refl _ }
  exact (further.invariant (contract.Sound system.world) start fun sound admitted taken =>
    sound.step meets admitted taken).keeps

end

end Contract

end SuiteCloud.Library
