/-
**Finite maps as functions to `Option`.**

A table, a cache or a set of processes is a function `K → Option V`, written by `Function.update`.

* `update_eq_some` — an entry found after a write is the one written, or one of another key.
* `update_none_eq_some` — an entry found after a removal is one of another key.
* `collect` — a loop that adds up what each entry gives, and may raise.
* `filterMap_sublist`, `eq_of_filterMap_nodup` — what a function picks from a list.
* `eq_of_perm_of_map` — lists with the same elements whose keys, all different, come in the same order.
* `mem_of_mapM`, `exists_mapM`, `mapM_eq_none`, `mapM_eq_self_iff` — a loop that turns each entry into
  another, and may raise.
* `find?_forall₂` — a search in two lists beside each other.
-/

import Mathlib.Logic.Function.Basic
import Mathlib.Data.List.Nodup
import Mathlib.Data.List.Pairwise

namespace SuiteCloud.Library

variable {K V : Type*} [DecidableEq K] {table : K → Option V} {key other : K} {value found : V}

/-- **An entry found after a write** is the one written, or was there before. -/
theorem update_eq_some (here : Function.update table key (some value) other = some found) :
    (other = key ∧ found = value) ∨ (other ≠ key ∧ table other = some found) := by
  by_cases same : other = key
  · subst same
    rw [Function.update_self] at here
    exact Or.inl ⟨rfl, (Option.some.inj here).symm⟩
  · rw [Function.update_of_ne same] at here
    exact Or.inr ⟨same, here⟩

/-- An entry found after a removal was there before, under another key. -/
theorem update_none_eq_some (here : Function.update table key none other = some found) :
    other ≠ key ∧ table other = some found := by
  by_cases same : other = key
  · subst same
    rw [Function.update_self] at here
    cases here
  · rw [Function.update_of_ne same] at here
    exact ⟨same, here⟩

/-- A loop that adds up what each entry gives; `none` where one raises. -/
def collect {α β : Type*} (gives : α → Option (List β)) : List α → Option (List β)
  | [] => some []
  | entry :: rest => do
      let first ← gives entry
      let more ← collect gives rest
      return first ++ more

theorem mem_collect {α β : Type*} {gives : α → Option (List β)} {entries : List α} {all : List β}
    (done : collect gives entries = some all) {given : β} :
    given ∈ all ↔ ∃ entry ∈ entries, ∃ own, gives entry = some own ∧ given ∈ own := by
  induction entries generalizing all with
  | nil =>
    obtain rfl := Option.some.inj done
    simp
  | cons entry rest ih =>
    obtain ⟨first, gave, done⟩ := Option.bind_eq_some_iff.mp done
    obtain ⟨more, later, done⟩ := Option.bind_eq_some_iff.mp done
    obtain rfl := Option.some.inj done
    rw [List.mem_append, ih later, List.exists_mem_cons_iff]
    refine or_congr_left ⟨fun member => ⟨first, gave, member⟩, ?_⟩
    rintro ⟨own, same, member⟩
    rw [gave] at same
    exact Option.some.inj same ▸ member

section MapM

variable {α β : Type*} {turns : α → Option β} {entries : List α} {turned : List β}

theorem mapM_cons_eq_some {entry : α} :
    (entry :: entries).mapM turns = some turned ↔
      ∃ first rest, turns entry = some first ∧ entries.mapM turns = some rest ∧
        turned = first :: rest := by
  rw [List.mapM_cons, Option.bind_eq_bind, Option.bind_eq_some_iff]
  refine exists_congr fun first => ?_
  rw [Option.bind_eq_bind, Option.bind_eq_some_iff]
  constructor
  · rintro ⟨given, rest, later, same⟩
    exact ⟨rest, given, later, (Option.some.inj same).symm⟩
  · rintro ⟨rest, given, later, rfl⟩
    exact ⟨given, rest, later, rfl⟩

/-- **What a loop turned its entries into.** -/
theorem mem_of_mapM (done : entries.mapM turns = some turned) {given : β} :
    given ∈ turned ↔ ∃ entry ∈ entries, turns entry = some given := by
  induction entries generalizing turned with
  | nil =>
    obtain rfl := Option.some.inj done
    simp
  | cons entry rest ih =>
    obtain ⟨first, more, gave, later, rfl⟩ := mapM_cons_eq_some.mp done
    rw [List.mem_cons, ih later, List.exists_mem_cons_iff, gave, Option.some.injEq, eq_comm]

/-- No entry raises. -/
theorem exists_mapM (turning : ∀ entry ∈ entries, ∃ given, turns entry = some given) :
    ∃ turned, entries.mapM turns = some turned := by
  induction entries with
  | nil => exact ⟨[], rfl⟩
  | cons entry rest ih =>
    obtain ⟨first, gave⟩ := turning entry List.mem_cons_self
    obtain ⟨more, later⟩ := ih fun other member => turning other (List.mem_cons_of_mem _ member)
    exact ⟨first :: more, mapM_cons_eq_some.mpr ⟨first, more, gave, later, rfl⟩⟩

/-- A loop that turns each entry into itself. -/
theorem mapM_eq_self {turns : α → Option α} (same : ∀ entry ∈ entries, turns entry = some entry) :
    entries.mapM turns = some entries := by
  induction entries with
  | nil => rfl
  | cons entry rest ih =>
    exact mapM_cons_eq_some.mpr ⟨entry, rest, same entry List.mem_cons_self,
      ih fun other member => same other (List.mem_cons_of_mem _ member), rfl⟩

/-- Entries before that are turned into themselves. -/
theorem mapM_append_of_self {turns : α → Option α} {before : List α}
    (same : ∀ entry ∈ before, turns entry = some entry) (after : List α) :
    (before ++ after).mapM turns = (after.mapM turns).map (before ++ ·) := by
  induction before with
  | nil => simp
  | cons entry rest ih =>
    obtain ⟨first, others⟩ := List.forall_mem_cons.mp same
    rw [List.cons_append, List.mapM_cons, first, ih others]
    cases after.mapM turns <;> rfl

theorem mapM_length (done : entries.mapM turns = some turned) : turned.length = entries.length := by
  induction entries generalizing turned with
  | nil =>
    obtain rfl := Option.some.inj done
    rfl
  | cons entry rest ih =>
    obtain ⟨first, more, -, later, rfl⟩ := mapM_cons_eq_some.mp done
    rw [List.length_cons, ih later, List.length_cons]

/-- A loop leaves its entries as they are where it leaves each of them. -/
theorem mapM_eq_self_iff {turns : α → Option α} :
    entries.mapM turns = some entries ↔ ∀ entry ∈ entries, turns entry = some entry := by
  refine ⟨fun done => ?_, mapM_eq_self⟩
  induction entries with
  | nil => exact fun entry member => absurd member List.not_mem_nil
  | cons entry rest ih =>
    obtain ⟨first, more, gave, later, same⟩ := mapM_cons_eq_some.mp done
    obtain ⟨rfl, rfl⟩ := List.cons.inj same
    exact List.forall_mem_cons.mpr ⟨gave, ih later⟩

/-- A loop that raises does so at an entry. -/
theorem mapM_eq_none : entries.mapM turns = none ↔ ∃ entry ∈ entries, turns entry = none := by
  induction entries with
  | nil => simp
  | cons entry rest ih =>
    rw [List.exists_mem_cons_iff, ← ih, List.mapM_cons]
    cases turns entry with
    | none => simp
    | some first => cases rest.mapM turns <;> simp

end MapM

/-- What one function picks, in order, is among what a function picks that agrees with it. -/
theorem filterMap_sublist {α β : Type*} {pick other : α → Option β}
    (agrees : ∀ a b, pick a = some b → other a = some b) (list : List α) :
    (list.filterMap pick).Sublist (list.filterMap other) := by
  induction list with
  | nil => exact .refl _
  | cons first rest ih =>
    cases picked : pick first with
    | none =>
      rw [List.filterMap_cons_none picked]
      cases there : other first with
      | none => rwa [List.filterMap_cons_none there]
      | some b =>
        rw [List.filterMap_cons_some there]
        exact ih.cons b
    | some b =>
      rw [List.filterMap_cons_some picked, List.filterMap_cons_some (agrees first b picked)]
      exact ih.cons_cons b

/-- Where a function picks nothing twice, what it picked tells the element. -/
theorem eq_of_filterMap_nodup {α β : Type*} {pick : α → Option β} {list : List α}
    (once : (list.filterMap pick).Nodup) {a a' : α} (here : a ∈ list) (there : a' ∈ list) {b : β}
    (picked : pick a = some b) (same : pick a' = some b) : a = a' := by
  by_contra different
  have apart := List.pairwise_filterMap.mp once
  have : Std.Symm fun first second : α =>
      ∀ x, pick first = some x → ∀ y, pick second = some y → x ≠ y :=
    ⟨fun _ _ holds x left y right => (holds y right x left).symm⟩
  exact apart.forall here there different b picked b same rfl

/-- **Lists with the same elements**, whose keys come in the same order and are all different, are the
same. -/
theorem eq_of_perm_of_map {α β : Type*} {key : α → β} {list other : List α} (perm : list.Perm other)
    (same : list.map key = other.map key) (distinct : (other.map key).Nodup) : list = other := by
  induction list generalizing other with
  | nil => exact perm.nil_eq
  | cons first rest ih =>
    cases other with
    | nil => cases same
    | cons first' rest' =>
      obtain ⟨keys, others⟩ := List.cons.inj same
      have among : first ∈ first' :: rest' := perm.subset List.mem_cons_self
      obtain rfl := List.inj_on_of_nodup_map distinct among List.mem_cons_self keys
      rw [List.map_cons, List.nodup_cons] at distinct
      rw [ih ((List.perm_cons first).mp perm) others distinct.2]

/-- **A search in two lists beside each other** finds the same place. -/
theorem find?_forall₂ {α β : Type*} {relates : α → β → Prop} {pick : α → Bool} {pick' : β → Bool} {list : List α}
    {other : List β} (pairs : List.Forall₂ relates list other)
    (agrees : ∀ a b, relates a b → pick a = pick' b) :
    Option.Rel relates (list.find? pick) (other.find? pick') := by
  induction pairs with
  | nil => exact .none
  | @cons a b _ _ first rest ih =>
    rw [List.find?_cons, List.find?_cons, ← agrees a b first]
    split
    · exact .some first
    · exact ih

end SuiteCloud.Library
