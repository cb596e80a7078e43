/-
**The keys of JSON objects.**

A reader sets each key of an object, so no object it returns has a key twice. A writer may sort the keys of
every object, after which the order they were read in makes no difference.

* `keyed_of_loads` — **what is read has distinct keys**.
* `sortKeys` — the keys of every object in order; `keyed_sortKeys`, `sortKeys_sortKeys`.
-/

import Mathlib.Data.List.Sort
import Mathlib.Data.String.Basic
import SuiteCloud.Library.Json

set_option linter.unusedSectionVars false

namespace SuiteCloud.Library.Json

variable {N : Type} [Numeral N]

/-! ### What is read has distinct keys -/

/-- What a frame has read has distinct keys. -/
def Frame.IsKeyed : Frame N → Prop
  | .list items => keyedItems items = true
  | .object members _ => keyed (.object members) = true

def Mode.IsKeyed : Mode N → Prop
  | .key members => keyed (.object members) = true
  | .keyText members _ => keyed (.object members) = true
  | .colon members _ => keyed (.object members) = true
  | .done read => keyed read = true
  | _ => True

def Reader.IsKeyed (reader : Reader N) : Prop :=
  reader.mode.IsKeyed ∧ ∀ frame ∈ reader.stack, frame.IsKeyed

theorem keyed_object {members : List (String × Json N)} :
    keyed (.object members) = true ↔
      (members.map Prod.fst).Nodup ∧ ∀ member ∈ members, keyed member.2 = true := by
  rw [keyed, Bool.and_eq_true, decide_eq_true_iff, keyedMembers_iff]

theorem keyed_set {members : List (String × Json N)} {value : Json N} (key : String)
    (distinct : keyed (.object members) = true) (held : keyed value = true) :
    keyed (.object (Dict.set members key value)) = true := by
  obtain ⟨keys, values⟩ := keyed_object.mp distinct
  refine keyed_object.mpr ⟨Dict.nodup_keys_set keys, fun member among => ?_⟩
  rcases Dict.mem_of_mem_set among with rfl | before
  · exact held
  · exact values member before

variable {reader reader' : Reader N} {stack : List (Frame N)} {value : Json N} {c : Char}

theorem keyed_ofWord {word : List Char} (stands : ofWord word = some value) : keyed value = true := by
  unfold ofWord at stands
  split_ifs at stands
  · exact Option.some.inj stands ▸ rfl
  · exact Option.some.inj stands ▸ rfl
  · exact Option.some.inj stands ▸ rfl
  · obtain ⟨number, -, rfl⟩ := Option.map_eq_some_iff.mp stands
    rfl

theorem isKeyed_follow (held : keyed value = true) (frames : ∀ frame ∈ stack, frame.IsKeyed)
    (next : follow value stack c = some reader) : reader.IsKeyed := by
  unfold follow at next
  split at next
  · exact Option.some.inj next ▸ ⟨held, frames⟩
  · cases stack with
    | nil => cases next
    | cons frame rest =>
      obtain ⟨first, later⟩ := List.forall_mem_cons.mp frames
      cases frame with
      | list items =>
        have all : keyedItems (items ++ [value]) = true := keyedItems_iff.mpr fun item member => by
          rcases List.mem_append.mp member with before | last
          · exact keyedItems_iff.mp first item before
          · exact List.mem_singleton.mp last ▸ held
        simp only at next
        split_ifs at next
        · exact Option.some.inj next ▸ ⟨trivial, List.forall_mem_cons.mpr ⟨all, later⟩⟩
        · exact Option.some.inj next ▸ ⟨all, later⟩
      | object members key =>
        have all := keyed_set key first held
        simp only at next
        split_ifs at next
        · exact Option.some.inj next ▸ ⟨all, later⟩
        · exact Option.some.inj next ▸ ⟨all, later⟩

theorem isKeyed_begin (frames : ∀ frame ∈ stack, frame.IsKeyed) (next : begin stack c = some reader) :
    reader.IsKeyed := by
  unfold begin at next
  split_ifs at next
  all_goals
    obtain rfl := Option.some.inj next
    exact ⟨trivial, frames⟩

/-- **Every character keeps the keys distinct.** -/
theorem Reader.IsKeyed.next (held : reader.IsKeyed) (next : reader.next c = some reader') :
    reader'.IsKeyed := by
  obtain ⟨mode, stack⟩ := reader
  obtain ⟨here, frames⟩ := held
  cases mode with
  | value => exact isKeyed_begin frames next
  | firstItem =>
    simp only [Reader.next] at next
    split_ifs at next
    · exact Option.some.inj next ▸ ⟨trivial, frames⟩
    · exact Option.some.inj next ▸ ⟨rfl, frames⟩
    · have empty : (Frame.list [] : Frame N).IsKeyed := rfl
      exact isKeyed_begin (List.forall_mem_cons.mpr ⟨empty, frames⟩) next
  | firstKey =>
    simp only [Reader.next] at next
    split_ifs at next
    · exact Option.some.inj next ▸ ⟨trivial, frames⟩
    · exact Option.some.inj next ▸ ⟨rfl, frames⟩
    · exact Option.some.inj next ▸ ⟨rfl, frames⟩
  | key members =>
    simp only [Reader.next] at next
    split_ifs at next
    · exact Option.some.inj next ▸ ⟨here, frames⟩
    · exact Option.some.inj next ▸ ⟨here, frames⟩
  | keyText members reading =>
    simp only [Reader.next] at next
    split_ifs at next
    · exact Option.some.inj next ▸ ⟨here, frames⟩
    · obtain ⟨reading', -, rfl⟩ := Option.map_eq_some_iff.mp next
      exact ⟨here, frames⟩
  | colon members key =>
    simp only [Reader.next] at next
    split_ifs at next
    · exact Option.some.inj next ▸ ⟨here, frames⟩
    · exact Option.some.inj next ▸ ⟨trivial, List.forall_mem_cons.mpr ⟨here, frames⟩⟩
  | text reading =>
    simp only [Reader.next] at next
    split_ifs at next
    · exact Option.some.inj next ▸ ⟨rfl, frames⟩
    · obtain ⟨reading', -, rfl⟩ := Option.map_eq_some_iff.mp next
      exact ⟨trivial, frames⟩
  | word read =>
    simp only [Reader.next] at next
    split_ifs at next
    · exact Option.some.inj next ▸ ⟨trivial, frames⟩
    · obtain ⟨value, stands, follows⟩ := Option.bind_eq_some_iff.mp next
      exact isKeyed_follow (keyed_ofWord stands) frames follows
  | done value => exact isKeyed_follow here frames next

theorem Reader.IsKeyed.run {text : List Char} (held : reader.IsKeyed)
    (goes : reader.run text = some reader') : reader'.IsKeyed := by
  induction text generalizing reader with
  | nil => exact Option.some.inj goes ▸ held
  | cons c rest ih =>
    rw [run_cons] at goes
    obtain ⟨middle, next, goes⟩ := Option.bind_eq_some_iff.mp goes
    exact ih (held.next next) goes

/-- **What is read has distinct keys.** -/
theorem keyed_of_loads {text : List Char} (read : loads text = some value) : keyed value = true := by
  obtain ⟨reader, goes, ends⟩ := Option.bind_eq_some_iff.mp read
  have starts : (Reader.start : Reader N).IsKeyed := ⟨trivial, fun _ none => absurd none List.not_mem_nil⟩
  have held := starts.run goes
  obtain ⟨mode, stack⟩ := reader
  cases stack with
  | nil =>
    cases mode with
    | done other => exact Option.some.inj ends ▸ held.1
    | word read => exact keyed_ofWord ends
    | _ => cases ends
  | cons frame rest =>
    cases mode with
    | _ => cases ends

/-! ### Keys in order -/

/-- Members in the order of their keys. -/
def inOrder (members : List (String × Json N)) : List (String × Json N) :=
  members.insertionSort fun member other => member.1 ≤ other.1

mutual

/-- **The keys of every object in order.** -/
def sortKeys : Json N → Json N
  | .list items => .list (sortItems items)
  | .object members => .object (inOrder (sortMembers members))
  | value => value

def sortItems : List (Json N) → List (Json N)
  | [] => []
  | item :: rest => sortKeys item :: sortItems rest

def sortMembers : List (String × Json N) → List (String × Json N)
  | [] => []
  | (key, value) :: rest => (key, sortKeys value) :: sortMembers rest

end

theorem sortItems_eq_map (items : List (Json N)) : sortItems items = items.map sortKeys := by
  induction items with
  | nil => rfl
  | cons item rest ih => rw [sortItems, ih, List.map_cons]

theorem sortMembers_eq_map (members : List (String × Json N)) :
    sortMembers members = members.map fun member => (member.1, sortKeys member.2) := by
  induction members with
  | nil => rfl
  | cons member rest ih => rw [sortMembers, ih, List.map_cons]

theorem inOrder_perm (members : List (String × Json N)) : (inOrder members).Perm members :=
  List.perm_insertionSort _ _

theorem inOrder_inOrder (members : List (String × Json N)) : inOrder (inOrder members) = inOrder members :=
  (List.pairwise_insertionSort _ _).insertionSort_eq

theorem sortKeys_list (items : List (Json N)) : sortKeys (.list items) = .list (items.map sortKeys) := by
  rw [sortKeys, sortItems_eq_map]

theorem sortKeys_object (members : List (String × Json N)) :
    sortKeys (.object members)
      = .object (inOrder (members.map fun member => (member.1, sortKeys member.2))) := by
  rw [sortKeys, sortMembers_eq_map]

/-- **Keys in order stay so.** -/
theorem sortKeys_sortKeys (value : Json N) : sortKeys (sortKeys value) = sortKeys value := by
  induction value using ind with
  | null => rfl
  | bool value => rfl
  | number value => rfl
  | text content => rfl
  | list items ih =>
    rw [sortKeys_list, sortKeys_list, List.map_map]
    exact congrArg _ (List.map_congr_left ih)
  | object members ih =>
    have settled : ∀ member ∈ inOrder (members.map fun member => (member.1, sortKeys member.2)),
        (member.1, sortKeys member.2) = member := by
      intro member among
      obtain ⟨before, there, rfl⟩ := List.mem_map.mp ((inOrder_perm _).subset among)
      exact congrArg _ (ih before there)
    rw [sortKeys_object, sortKeys_object, List.map_congr_left settled, List.map_id', inOrder_inOrder]

/-- Keys in order are the same keys. -/
theorem keyed_sortKeys {value : Json N} (distinct : keyed value = true) : keyed (sortKeys value) = true := by
  induction value using ind with
  | null => rfl
  | bool value => rfl
  | number value => rfl
  | text content => rfl
  | list items ih =>
    rw [sortKeys_list, keyed, keyedItems_iff]
    intro item member
    obtain ⟨before, there, rfl⟩ := List.mem_map.mp member
    exact ih before there (keyedItems_iff.mp distinct before there)
  | object members ih =>
    obtain ⟨keys, values⟩ := keyed_object.mp distinct
    rw [sortKeys_object, keyed_object]
    constructor
    · have same : (members.map fun member => (member.1, sortKeys member.2)).map Prod.fst
          = members.map Prod.fst := by rw [List.map_map]; rfl
      rw [((inOrder_perm _).map Prod.fst).nodup_iff, same]
      exact keys
    · intro member among
      obtain ⟨before, there, rfl⟩ := List.mem_map.mp ((inOrder_perm _).subset among)
      exact ih before there (values before there)

end SuiteCloud.Library.Json
