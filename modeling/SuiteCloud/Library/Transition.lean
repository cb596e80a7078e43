/-
**Labelled transition systems: guarded runs and their invariants.**

A system is a step function `step : S → A → Option S`; `none` means that the action cannot be taken
in that state. A guard `ok : S → A → Prop` singles out the runs a statement is about: every action
of the run must meet it at the state it is taken from.

* `Reaches step ok start` — the states some guarded run reaches from `start`.
* `Reaches.invariant` — **the invariant rule**: what holds at the start and is kept by every
  guarded step holds in every state reached.
* `Reaches.projects` — **the simulation rule**: a run shows as a run of a simpler system.
* `run` and `reaches_of_run` — a concrete list of actions, evaluated, is such a run.
-/

import Mathlib.Tactic.Common

namespace SuiteCloud.Library

variable {S A : Type*}

/-- The guard that admits every action. -/
def anyStep : S → A → Prop := fun _ _ => True

/-- **The states reached** from `start` by runs whose every action meets `ok` where it is taken. -/
inductive Reaches (step : S → A → Option S) (ok : S → A → Prop) (start : S) : S → Prop
  | start : Reaches step ok start start
  | next {here there : S} {action : A} : Reaches step ok start here → ok here action →
      step here action = some there → Reaches step ok start there

namespace Reaches

variable {step : S → A → Option S} {ok : S → A → Prop} {start here there : S}

/-- **The invariant rule.** -/
theorem invariant (Holds : S → Prop) (initially : Holds start)
    (kept : ∀ {here there action}, Holds here → ok here action →
      step here action = some there → Holds there)
    (reached : Reaches step ok start here) : Holds here := by
  induction reached with
  | start => exact initially
  | next _ allowed taken ih => exact kept ih allowed taken

/-- A run of one action. -/
theorem single (action : A) (allowed : ok start action) (taken : step start action = some there) :
    Reaches step ok start there :=
  .next .start allowed taken

/-- A run followed by a run. -/
theorem trans (first : Reaches step ok start here) (second : Reaches step ok here there) :
    Reaches step ok start there := by
  induction second with
  | start => exact first
  | next _ allowed taken ih => exact .next ih allowed taken

/-- A run under one guard is a run under every weaker one. -/
theorem mono {weaker : S → A → Prop} (weaken : ∀ s a, ok s a → weaker s a)
    (reached : Reaches step ok start here) : Reaches step weaker start here := by
  induction reached with
  | start => exact .start
  | next _ allowed taken ih => exact .next ih (weaken _ _ allowed) taken

/-- **A run seen through a projection**: where every guarded step shows as a guarded step of another
system, or as none at all, every run shows as a run. -/
theorem projects {S' A' : Type*} {step' : S' → A' → Option S'} {ok' : S' → A' → Prop}
    (project : S → S')
    (shows : ∀ {here there action}, ok here action → step here action = some there →
      project there = project here ∨
        ∃ action', ok' (project here) action' ∧
          step' (project here) action' = some (project there))
    (reached : Reaches step ok start here) :
    Reaches step' ok' (project start) (project here) := by
  induction reached with
  | start => exact .start
  | next _ allowed taken ih =>
    obtain same | ⟨action', allowed', taken'⟩ := shows allowed taken
    · rw [same]
      exact ih
    · exact .next ih allowed' taken'

end Reaches

/-- The state a list of actions leads to, taken one after the other. -/
def run (step : S → A → Option S) : S → List A → Option S
  | here, [] => some here
  | here, action :: rest => (step here action).bind (run step · rest)

/-- The guard holds at every step of a list of actions. -/
def RunMeets (step : S → A → Option S) (ok : S → A → Prop) : S → List A → Prop
  | _, [] => True
  | here, action :: rest =>
      ok here action ∧ ∀ there ∈ step here action, RunMeets step ok there rest

instance decidableRunMeets (step : S → A → Option S) (ok : S → A → Prop)
    [∀ s a, Decidable (ok s a)] :
    ∀ (here : S) (actions : List A), Decidable (RunMeets step ok here actions)
  | _, [] => isTrue trivial
  | here, action :: rest =>
      have := fun there => decidableRunMeets step ok there rest
      inferInstanceAs (Decidable (ok here action ∧ ∀ there ∈ step here action,
        RunMeets step ok there rest))

/-- **A list of actions that evaluates to a state reaches it.** -/
theorem reaches_of_run {step : S → A → Option S} {ok : S → A → Prop} {there : S} :
    ∀ {actions : List A} {here : S}, RunMeets step ok here actions →
      run step here actions = some there → Reaches step ok here there
  | [], here, _, ends => by
      obtain rfl := Option.some.inj ends
      exact .start
  | action :: rest, here, meets, ends => by
      obtain ⟨middle, taken, tail⟩ := Option.bind_eq_some_iff.mp ends
      exact Reaches.trans (.next .start meets.1 taken)
        (reaches_of_run (meets.2 middle taken) tail)

/-- A list of actions that meet the guard in any state meets it where they are taken. -/
theorem runMeets_of_forall {step : S → A → Option S} {ok : S → A → Prop} :
    ∀ {actions : List A} {here : S}, (∀ action ∈ actions, ∀ s, ok s action) →
      RunMeets step ok here actions
  | [], _, _ => trivial
  | action :: _, here, meets =>
      ⟨meets action List.mem_cons_self here, fun _ _ =>
        runMeets_of_forall fun other member => meets other (List.mem_cons_of_mem _ member)⟩

end SuiteCloud.Library
