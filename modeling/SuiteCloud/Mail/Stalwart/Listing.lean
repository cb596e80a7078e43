/-
**Listing the ids of a collection.**

`iter_ids` of `suite_cloud/mail/stalwart/service.py` and `fetch` of `suite_cloud/mail/reports.py`. The ids
that match a filter are asked for page by page, sorted by the id itself; a page with fewer ids than were
asked for is taken for the last one, while a server may answer with fewer whenever it likes.

* `Collection.matching` — what a filter matches, sorted.
* `Server`, `Honest` — what a server answers, and may answer.
* `iterIds`, `fetchNewIds` — `iter_ids`, and the ids a fetch is about to copy.
* `every_id_listed_iff` — **every matching id is listed once** when no answer before the last is short, and
  only then; so does a fetch miss none.
* `clamped_ids_missed` — a server that answers with two ids at most.
-/

import Mathlib.Data.List.Sort
import SuiteCloud.Library.Dict
import SuiteCloud.Library.Paging

set_option linter.unusedSectionVars false

namespace SuiteCloud.Mail.Stalwart.Listing

open SuiteCloud.Library

variable {Id : Type} [LinearOrder Id]

/-! ## Queries -/

/-- The objects of one type, by their ids. -/
structure Collection (Id : Type) where
  ids : List Id
  unique : ids.Nodup

/-- A filter of a query; `none` matches every object. -/
abbrev Filter (Id : Type) := Option (Id → Bool)

/-- **What a filter matches**, in the order of the ids. -/
def Collection.matching (collection : Collection Id) (filter : Filter Id) : List Id :=
  (collection.ids.filter (filter.getD fun _ => true)).insertionSort (· ≤ ·)

/-- A server: its answer to a query sorted by the id, after it has answered some queries. -/
abbrev Server (Id : Type) :=
  (asked : ℕ) → (filter : Filter Id) → (position limit : ℕ) → List Id

/-- **A server that keeps to the protocol**: each answer is a run of the sorted matches from the position
asked for, no longer than the limit, and not empty while matches remain. -/
def Honest (server : Server Id) (collection : Collection Id) : Prop :=
  ∀ asked filter position limit,
    IsPage (collection.matching filter) limit position (server asked filter position limit)

/-! ## The two callers -/

/-- `page_size` of `iter_ids`, where the caller gives none. -/
def defaultPageSize : ℕ := 500

/-- **`iter_ids`**: what it yields; `none` where the fuel does not last. -/
def iterIds (server : Server Id) (filter : Filter Id) (pageSize fuel : ℕ) : Option (List Id) :=
  readPages (fun asked position => server asked filter position pageSize) pageSize fuel 0 0

/-- `new_ids` of `fetch`: the ids that are not stored, each once. -/
def newIds (stored ids : List Id) : List Id :=
  Dict.keys (Dict.ofList ((ids.filter (· ∉ stored)).map (·, ())))

/-- **`fetch`**, up to the reports it asks for. -/
def fetchNewIds (server : Server Id) (stored : List Id) (fuel : ℕ) : Option (List Id) :=
  (iterIds server none defaultPageSize fuel).map (newIds stored)

/-! ## What is proved -/

/-- Each matching id is yielded once, and no other. -/
def ListsOnce (matching ids : List Id) : Prop := ids.Nodup ∧ ∀ id, id ∈ ids ↔ id ∈ matching

/-- **No answer is short**: where `iter_ids` asks while it gets whole pages, the server answers with a
page or with all that is left. -/
def NeverShort (server : Server Id) (filter : Filter Id) (pageSize total : ℕ) : Prop :=
  0 < pageSize ∧ FullPages (fun asked position => server asked filter position pageSize) pageSize total

variable {server : Server Id} {collection : Collection Id} {filter : Filter Id}
  {pageSize fuel : ℕ} {stored ids : List Id} {id : Id}

theorem nodup_matching : (collection.matching filter).Nodup :=
  (List.perm_insertionSort _ _).nodup_iff.mpr (collection.unique.filter _)

theorem mem_newIds : id ∈ newIds stored ids ↔ id ∈ ids ∧ id ∉ stored := by
  unfold newIds
  rw [Dict.mem_keys_ofList, List.map_map]
  have same : Prod.fst ∘ (fun id : Id => (id, ())) = fun id => id := rfl
  rw [same, List.map_id', List.mem_filter, decide_eq_true_iff]

theorem iterIds_isPrefix (honest : Honest server collection)
    (yields : iterIds server filter pageSize fuel = some ids) :
    ids <+: collection.matching filter :=
  readPages_isPrefix (fun asked position => honest asked filter position pageSize) yields

theorem eq_of_isPrefix {all : List Id} (first : ids <+: all) (unique : all.Nodup)
    (every : ∀ id ∈ all, id ∈ ids) : ids = all := by
  obtain ⟨rest, rfl⟩ := first
  cases rest with
  | nil => rw [List.append_nil]
  | cons id rest =>
    have again := every id (List.mem_append_right _ List.mem_cons_self)
    exact absurd List.mem_cons_self ((List.disjoint_of_nodup_append unique) again)

theorem listsOnce_matching : ListsOnce (collection.matching filter) (collection.matching filter) :=
  ⟨nodup_matching, fun _ => Iff.rfl⟩

theorem yields_all_iff (honest : Honest server collection) :
    (∃ fuel ids, iterIds server filter pageSize fuel = some ids ∧
        ∀ id ∈ collection.matching filter, id ∈ ids) ↔
      NeverShort server filter pageSize (collection.matching filter).length := by
  rw [NeverShort, ← readsAll_iff fun asked position => honest asked filter position pageSize]
  constructor
  · rintro ⟨fuel, ids, yields, every⟩
    obtain rfl := eq_of_isPrefix (iterIds_isPrefix honest yields) nodup_matching every
    exact ⟨fuel, yields⟩
  · rintro ⟨fuel, yields⟩
    exact ⟨fuel, _, yields, fun _ member => member⟩

/-- **When every matching id is listed once.** With a server that keeps to the protocol, `iter_ids` comes
to an end having yielded each matching id exactly once, for a filter and a page size, if and only if pages
have a size and no answer before the last is short; and a fetch, whatever is stored, comes to an end and
misses no id that is not stored, if and only if the same is true of its own query. -/
theorem every_id_listed_iff (collection : Collection Id) (server : Server Id)
    (honest : Honest server collection) :
    (∀ filter pageSize,
      (∃ fuel ids, iterIds server filter pageSize fuel = some ids ∧
          ListsOnce (collection.matching filter) ids) ↔
        NeverShort server filter pageSize (collection.matching filter).length) ∧
    ((∀ stored, ∃ fuel new, fetchNewIds server stored fuel = some new ∧
          ∀ id ∈ collection.matching none, id ∉ stored → id ∈ new) ↔
        NeverShort server none defaultPageSize (collection.matching none).length) := by
  constructor
  · intro filter pageSize
    rw [← yields_all_iff honest]
    constructor
    · rintro ⟨fuel, ids, yields, -, every⟩
      exact ⟨fuel, ids, yields, fun id member => (every id).mpr member⟩
    · rintro ⟨fuel, ids, yields, every⟩
      obtain rfl := eq_of_isPrefix (iterIds_isPrefix honest yields) nodup_matching every
      exact ⟨fuel, _, yields, listsOnce_matching⟩
  · rw [← yields_all_iff honest]
    constructor
    · intro every
      -- With nothing stored, every id is new.
      obtain ⟨fuel, new, fetched, missesNone⟩ := every []
      obtain ⟨ids, yields, rfl⟩ := Option.map_eq_some_iff.mp fetched
      exact ⟨fuel, ids, yields, fun id member =>
        (mem_newIds.mp (missesNone id member List.not_mem_nil)).1⟩
    · rintro ⟨fuel, ids, yields, every⟩ stored
      refine ⟨fuel, newIds stored ids, congrArg (Option.map (newIds stored)) yields, ?_⟩
      exact fun id member fresh => mem_newIds.mpr ⟨every id member, fresh⟩

/-! ## A server that clamps its answers -/

/-- A server that answers with no more than so many ids. -/
def clamping (collection : Collection Id) (most : ℕ) : Server Id :=
  fun _ filter position limit => ((collection.matching filter).drop position).take (min limit most)

theorem honest_clamping {most : ℕ} (some_id : 0 < most) : Honest (clamping collection most) collection := by
  intro asked filter position limit
  refine ⟨List.take_prefix _ _, ?_, ?_⟩
  · exact (List.length_take_le _ _).trans (Nat.min_le_left _ _)
  · intro before limited empty
    have length := congrArg List.length empty
    rw [clamping, List.length_take, List.length_drop, List.length_nil] at length
    omega

/-- Three reports. -/
def threeReports : Collection ℕ := ⟨[0, 1, 2], by decide⟩

/-- A server with no limit of its own lists them. -/
theorem every_id_listed_iff_three :
    ∃ fuel ids, iterIds (clamping threeReports 1000) none 2 fuel = some ids ∧
      ListsOnce (threeReports.matching none) ids := by
  refine ((every_id_listed_iff threeReports (clamping threeReports 1000)
    (honest_clamping (by decide))).1 none 2).mpr ⟨by decide, fun k before => ?_⟩
  have length : (threeReports.matching none).length = 3 := by decide
  match k with
  | 0 => decide
  | 1 => decide
  | k + 2 => omega

/-- **A report is missed** when the server answers with two ids at most: the first answer is taken for the
last. -/
theorem clamped_ids_missed :
    Honest (clamping threeReports 2) threeReports ∧
      iterIds (clamping threeReports 2) none defaultPageSize 1 = some [0, 1] ∧
      ¬ (∃ fuel ids, iterIds (clamping threeReports 2) none defaultPageSize fuel = some ids ∧
        ListsOnce (threeReports.matching none) ids) ∧
      ¬ ∀ stored, ∃ fuel new, fetchNewIds (clamping threeReports 2) stored fuel = some new ∧
        ∀ id ∈ threeReports.matching none, id ∉ stored → id ∈ new := by
  have honest : Honest (clamping threeReports 2) threeReports := honest_clamping (by decide)
  have short : ¬ NeverShort (clamping threeReports 2) none defaultPageSize
      (threeReports.matching none).length := by
    rintro ⟨-, full⟩
    exact absurd (full 0 (by decide)) (by decide)
  refine ⟨honest, by decide, ?_, ?_⟩
  · rintro ⟨fuel, ids, yields, -, every⟩
    exact short ((yields_all_iff honest).mp ⟨fuel, ids, yields, fun id member => (every id).mpr member⟩)
  · intro missesNone
    obtain ⟨fuel, new, fetched, every⟩ := missesNone []
    obtain ⟨ids, yields, rfl⟩ := Option.map_eq_some_iff.mp fetched
    exact short ((yields_all_iff honest).mp ⟨fuel, ids, yields, fun id member =>
      (mem_newIds.mp (every id member List.not_mem_nil)).1⟩)

end SuiteCloud.Mail.Stalwart.Listing
