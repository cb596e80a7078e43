/-
**Python's `dict`.**

An association list in insertion order: a key set again keeps its place.

* `mem_keys_set`, `nodup_keys_set` and `mem_of_mem_set` — setting a key adds it, once.
* `mem_keys_ofList`, `nodup_keys_ofList` and `mem_of_mem_ofList` — a comprehension has the keys of its
  pairs, each once, and no other entries.
* `update_of_nodup`, `ofList_of_nodup` — entries of distinct keys stay as they are.
* `get_eq_some`, `get_eq_none` — the value of a key.
* `get_set` — the values after a key is set.
* `keys_perm_pop` — a key and the keys left when it is popped.
* `groupBy` — values gathered under their keys; `get_groupBy`.
-/

import Mathlib.Data.List.Nodup
import Mathlib.Data.List.Perm.Basic

namespace SuiteCloud.Library

/-- A dictionary: its keys and values, in the order the keys were first set. -/
abbrev Dict (K V : Type*) := List (K × V)

namespace Dict

variable {K V : Type*} [DecidableEq K]

def keys (dict : Dict K V) : List K := dict.map Prod.fst

/-- `dict[key] = value`. -/
def set (dict : Dict K V) (key : K) (value : V) : Dict K V :=
  match dict with
  | [] => [(key, value)]
  | (first, found) :: rest =>
      if first = key then (key, value) :: rest else (first, found) :: Dict.set rest key value

/-- `dict.get(key)`. -/
def get (dict : Dict K V) (key : K) : Option V := (dict.find? fun entry => entry.1 = key).map Prod.snd

/-- `dict.update(entries)`. -/
def update (dict entries : Dict K V) : Dict K V :=
  entries.foldl (fun dict entry => dict.set entry.1 entry.2) dict

/-- `dict.pop(key)`. -/
def pop (dict : Dict K V) (key : K) : Dict K V := dict.filter fun entry => entry.1 ≠ key

/-- A dict comprehension. -/
def ofList (entries : List (K × V)) : Dict K V :=
  entries.foldl (fun dict entry => dict.set entry.1 entry.2) []

variable {dict : Dict K V} {key other : K} {value : V}

theorem mem_keys_set : other ∈ (dict.set key value).keys ↔ other = key ∨ other ∈ dict.keys := by
  induction dict with
  | nil => simp [set, keys]
  | cons entry rest ih =>
    obtain ⟨first, found⟩ := entry
    simp only [set]
    by_cases same : first = key
    · subst same
      simp [keys]
    · simp only [if_neg same, keys, List.map_cons, List.mem_cons] at ih ⊢
      rw [ih]
      exact or_left_comm

theorem nodup_keys_set (distinct : dict.keys.Nodup) : (dict.set key value).keys.Nodup := by
  induction dict with
  | nil => exact List.nodup_singleton key
  | cons entry rest ih =>
    obtain ⟨first, found⟩ := entry
    obtain ⟨absent, distinct⟩ := List.nodup_cons.mp distinct
    simp only [set]
    by_cases same : first = key
    · subst same
      rw [if_pos rfl]
      exact List.nodup_cons.mpr ⟨absent, distinct⟩
    · rw [if_neg same]
      refine List.nodup_cons.mpr ⟨?_, ih distinct⟩
      intro member
      rcases mem_keys_set.mp member with equal | member
      · exact same equal
      · exact absent member

theorem mem_of_mem_set {entry : K × V} (member : entry ∈ dict.set key value) :
    entry = (key, value) ∨ entry ∈ dict := by
  induction dict with
  | nil => exact Or.inl (List.mem_singleton.mp member)
  | cons head rest ih =>
    obtain ⟨first, found⟩ := head
    simp only [set] at member
    split at member
    · rcases List.mem_cons.mp member with rfl | member
      · exact Or.inl rfl
      · exact Or.inr (List.mem_cons_of_mem _ member)
    · rcases List.mem_cons.mp member with rfl | member
      · exact Or.inr List.mem_cons_self
      · exact (ih member).imp_right (List.mem_cons_of_mem _)

section Comprehension

variable {entries : List (K × V)}

theorem mem_keys_foldl_set (dict : Dict K V) :
    other ∈ (entries.foldl (fun dict entry => dict.set entry.1 entry.2) dict).keys ↔
      other ∈ dict.keys ∨ other ∈ entries.map Prod.fst := by
  induction entries generalizing dict with
  | nil => simp
  | cons entry rest ih =>
    rw [List.foldl_cons, ih, mem_keys_set, List.map_cons, List.mem_cons, or_assoc, or_left_comm]

theorem nodup_keys_foldl_set {dict : Dict K V} (distinct : dict.keys.Nodup) :
    (entries.foldl (fun dict entry => dict.set entry.1 entry.2) dict).keys.Nodup := by
  induction entries generalizing dict with
  | nil => exact distinct
  | cons entry rest ih => exact ih (nodup_keys_set distinct)

theorem mem_of_mem_foldl_set {dict : Dict K V} {found : K × V}
    (member : found ∈ entries.foldl (fun dict entry => dict.set entry.1 entry.2) dict) :
    found ∈ dict ∨ found ∈ entries := by
  induction entries generalizing dict with
  | nil => exact Or.inl member
  | cons entry rest ih =>
    rcases ih member with there | later
    · rcases mem_of_mem_set there with rfl | before
      · exact Or.inr List.mem_cons_self
      · exact Or.inl before
    · exact Or.inr (List.mem_cons_of_mem _ later)

/-- **A comprehension has the keys of its pairs.** -/
theorem mem_keys_ofList : other ∈ (ofList entries).keys ↔ other ∈ entries.map Prod.fst := by
  rw [ofList, mem_keys_foldl_set]
  exact or_iff_right List.not_mem_nil

theorem nodup_keys_ofList : (ofList entries).keys.Nodup := nodup_keys_foldl_set List.nodup_nil

theorem mem_of_mem_ofList {found : K × V} (member : found ∈ ofList entries) : found ∈ entries :=
  (mem_of_mem_foldl_set member).resolve_left List.not_mem_nil

/-- A key that is not there is added at the end. -/
theorem set_of_not_mem (absent : key ∉ dict.keys) : dict.set key value = dict ++ [(key, value)] := by
  induction dict with
  | nil => rfl
  | cons entry rest ih =>
    obtain ⟨first, found⟩ := entry
    have different : first ≠ key := by
      rintro rfl
      exact absent List.mem_cons_self
    rw [set, if_neg different, ih fun member => absent (List.mem_cons_of_mem _ member)]
    rfl

/-- **Updating with entries of other keys** adds them at the end. -/
theorem update_of_nodup (dict : Dict K V) (distinct : ((dict ++ entries).map Prod.fst).Nodup) :
    dict.update entries = dict ++ entries := by
  induction entries generalizing dict with
  | nil => simp [update]
  | cons entry rest ih =>
    have absent : entry.1 ∉ dict.keys := by
      rw [List.map_append, List.map_cons] at distinct
      intro member
      exact List.disjoint_of_nodup_append distinct member List.mem_cons_self
    have moved : dict ++ entry :: rest = dict ++ [entry] ++ rest := by simp
    rw [moved] at distinct ⊢
    rw [← ih _ distinct, ← set_of_not_mem absent]
    rfl

/-- A comprehension over distinct keys is its entries. -/
theorem ofList_of_nodup (distinct : (entries.map Prod.fst).Nodup) : ofList entries = entries :=
  update_of_nodup [] distinct

variable {W : Type*}

theorem map_set (f : V → W) (dict : Dict K V) :
    (dict.set key value).map (fun entry => (entry.1, f entry.2)) =
      Dict.set (dict.map fun entry => (entry.1, f entry.2)) key (f value) := by
  induction dict with
  | nil => rfl
  | cons entry rest ih =>
    rw [set, List.map_cons, set]
    split
    · rfl
    · rw [List.map_cons, ih]

theorem foldl_set_map (f : V → W) (dict : Dict K V) :
    (entries.map fun entry => (entry.1, f entry.2)).foldl (fun dict entry => Dict.set dict entry.1 entry.2)
        (dict.map fun entry => (entry.1, f entry.2)) =
      (entries.foldl (fun dict entry => dict.set entry.1 entry.2) dict).map
        fun entry => (entry.1, f entry.2) := by
  induction entries generalizing dict with
  | nil => rfl
  | cons entry rest ih => rw [List.map_cons, List.foldl_cons, List.foldl_cons, ← map_set, ih]

/-- **A comprehension over changed values.** -/
theorem ofList_map (f : V → W) (entries : List (K × V)) :
    ofList (entries.map fun entry => (entry.1, f entry.2)) =
      (ofList entries).map fun entry => (entry.1, f entry.2) := foldl_set_map f []

end Comprehension

theorem get_eq_none : dict.get key = none ↔ key ∉ dict.keys := by
  rw [get, Option.map_eq_none_iff, List.find?_eq_none]
  constructor
  · intro absent member
    obtain ⟨entry, there, rfl⟩ := List.mem_map.mp member
    exact absent entry there (decide_eq_true rfl)
  · intro absent entry there same
    exact absent (List.mem_map.mpr ⟨entry, there, of_decide_eq_true same⟩)

/-- **A key's value** is that of its entry. -/
theorem get_eq_some (distinct : dict.keys.Nodup) : dict.get key = some value ↔ (key, value) ∈ dict := by
  constructor
  · intro found
    obtain ⟨⟨first, second⟩, there, rfl⟩ := Option.map_eq_some_iff.mp found
    have same := List.find?_some there
    obtain rfl : first = key := of_decide_eq_true same
    exact List.mem_of_find?_eq_some there
  · intro member
    cases found : dict.get key with
    | none => exact absurd (List.mem_map_of_mem member) (get_eq_none.mp found)
    | some other =>
      obtain ⟨⟨first, second⟩, there, rfl⟩ := Option.map_eq_some_iff.mp found
      have same := List.find?_some there
      have keyed : first = key := of_decide_eq_true same
      have equal := List.inj_on_of_nodup_map distinct (List.mem_of_find?_eq_some there) member keyed
      exact congrArg (some ∘ Prod.snd) equal

/-- **The values after a key is set.** -/
theorem get_set : (dict.set key value).get other = if other = key then some value else dict.get other := by
  induction dict with
  | nil =>
    by_cases same : key = other
    · simp [set, get, same]
    · simp [set, get, same, Ne.symm same]
  | cons entry rest ih =>
    obtain ⟨first, found⟩ := entry
    simp only [get] at ih ⊢
    by_cases here : first = key
    · subst here
      by_cases same : first = other
      · simp [set, same]
      · simp [set, same, Ne.symm same]
    · rw [set, if_neg here]
      by_cases same : first = other
      · subst same
        simp [here]
      · simp only [List.find?_cons, decide_eq_false same]
        exact ih

section Groups

variable {pairs : List (K × V)}

/-- `dict.setdefault(key, []).append(value)`. -/
def append (dict : Dict K (List V)) (pair : K × V) : Dict K (List V) :=
  dict.set pair.1 ((dict.get pair.1).getD [] ++ [pair.2])

/-- The values of pairs, gathered under their keys. -/
def groupBy (pairs : List (K × V)) : Dict K (List V) := pairs.foldl append []

theorem nodup_keys_groupBy : (groupBy pairs).keys.Nodup := by
  have grown : ∀ (pairs : List (K × V)) (dict : Dict K (List V)), dict.keys.Nodup →
      (pairs.foldl append dict).keys.Nodup := by
    intro pairs
    induction pairs with
    | nil => exact fun _ distinct => distinct
    | cons pair rest ih => exact fun dict distinct => ih _ (nodup_keys_set distinct)
  exact grown pairs [] List.nodup_nil

/-- What a key has gathered so far, and the pairs of the key that follow. -/
theorem get_foldl_append (dict : Dict K (List V)) :
    ((pairs.foldl append dict).get key).getD [] =
      (dict.get key).getD [] ++ (pairs.filter fun pair => pair.1 = key).map Prod.snd := by
  induction pairs generalizing dict with
  | nil => simp
  | cons pair rest ih =>
    rw [List.foldl_cons, ih, append, get_set]
    by_cases same : pair.1 = key
    · simp [same]
    · simp [same, Ne.symm same]

/-- **A key has the values of its pairs**, in their order. -/
theorem get_groupBy {values : List V} (found : (groupBy pairs).get key = some values) :
    values = (pairs.filter fun pair => pair.1 = key).map Prod.snd := by
  have all : ((groupBy pairs).get key).getD [] =
      [] ++ (pairs.filter fun pair => pair.1 = key).map Prod.snd := get_foldl_append []
  rw [found] at all
  exact all

theorem mem_keys_groupBy : key ∈ (groupBy pairs).keys ↔ ∃ value, (key, value) ∈ pairs := by
  have grown : ∀ (pairs : List (K × V)) (dict : Dict K (List V)),
      key ∈ (pairs.foldl append dict).keys ↔ key ∈ dict.keys ∨ ∃ value, (key, value) ∈ pairs := by
    intro pairs
    induction pairs with
    | nil => simp
    | cons pair rest ih =>
      intro dict
      obtain ⟨first, second⟩ := pair
      rw [List.foldl_cons, ih, append, mem_keys_set]
      simp only [List.mem_cons, Prod.mk.injEq]
      constructor
      · rintro ((rfl | before) | ⟨value, later⟩)
        · exact Or.inr ⟨second, Or.inl ⟨rfl, rfl⟩⟩
        · exact Or.inl before
        · exact Or.inr ⟨value, Or.inr later⟩
      · rintro (before | ⟨value, ⟨rfl, -⟩ | later⟩)
        · exact Or.inl (Or.inr before)
        · exact Or.inl (Or.inl rfl)
        · exact Or.inr ⟨value, later⟩
  rw [groupBy, grown]
  exact or_iff_right List.not_mem_nil

end Groups

theorem keys_pop (dict : Dict K V) (key : K) :
    (dict.pop key).keys = dict.keys.filter fun other => other ≠ key := by
  rw [pop, keys, keys, List.filter_map]
  rfl

/-- **A key, and the keys left when it is popped.** -/
theorem keys_perm_pop (distinct : dict.keys.Nodup) (there : key ∈ dict.keys) :
    (key :: (dict.pop key).keys).Perm dict.keys := by
  have erased : dict.keys.filter (fun other => other ≠ key) = dict.keys.erase key := by
    rw [List.Nodup.erase_eq_filter distinct]
    refine List.filter_congr fun other _ => ?_
    by_cases same : other = key
    · simp [same]
    · simp [same]
  rw [keys_pop, erased]
  exact (List.perm_cons_erase there).symm

end Dict

end SuiteCloud.Library
