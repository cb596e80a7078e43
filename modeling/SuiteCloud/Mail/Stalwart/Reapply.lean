/-
**A plan that is applied again.**

What does the second of two applies of one plan do? The first one leaves each upserted object with the
properties of its value; the second one finds it by the same match and has nothing to change.

* `Tracks` — the dicts that the applier keeps beside the objects of the server.
* `Settled` — an upsert finds its object, and the object has what the value gives.
* `began_applyPlan` — **what the first apply leaves.**
* `Lockstep`, `lockstep_applyPlan` — the second apply beside the first.
* `reapply_noop` — **the second apply creates nothing, reports every upserted object unchanged, gives
  each label its id again and leaves the server as it is.**
* `unsecret_steps`, `untouched_steps` — what no apply does.
* `reported_by_update` — an object that an update names is reported each time.
-/

import SuiteCloud.Mail.Stalwart.Plan

namespace SuiteCloud.Mail.Stalwart

open SuiteCloud.Library

/-! ### Patches that spare what is matched -/

section Patch

variable {matchOn : List String} {value patch : Members} {object : Object}

/-- A patch leaves the properties alone that the object is matched by. -/
def Spares (matchOn : List String) (patch : Members) : Prop := ∀ key ∈ matchOn, key ∉ Dict.keys patch

theorem Spares.isMatch_patched (spares : Spares matchOn patch) :
    isMatch matchOn value (object.patched patch).entry = isMatch matchOn value object.entry :=
  isMatch_congr fun key there => by
    rw [Entry.value, Entry.value, patched_entry_of_not_mem (spares key there)]

end Patch

/-! ### The objects listed and the objects there are -/

section Tracking

variable {matchOn : List String} {value patch : Members} {type id : String} {log : List Upsert}
  {existing : List Entry} {objects : List Object}

/-- A dict of the client and the object it was read from: they agree on the id and on what is matched, and
on all else until an upsert finds the object. -/
structure Tracks (matchOn : List String) (type : String) (log : List Upsert) (entry : Entry)
    (object : Object) : Prop where
  id : entry "id" = some (.text object.id)
  keys : ∀ key ∈ matchOn, entry.value key = object.entry.value key
  fresh : (∀ upsert ∈ log, upsert.type = type → upsert.id ≠ object.id) → entry = object.entry

theorem tracks_getAll (matchOn : List String) (log : List Upsert) (type : String) (objects : List Object) :
    List.Forall₂ (Tracks matchOn type log) (objects.map Object.entry) objects := by
  rw [List.forall₂_map_left_iff, List.forall₂_same]
  exact fun object _ => ⟨object.entry_id, fun _ _ => rfl, fun _ => rfl⟩

theorem Tracks.isMatch {entry : Entry} {object : Object} (tracks : Tracks matchOn type log entry object) :
    isMatch matchOn value entry = isMatch matchOn value object.entry := isMatch_congr tracks.keys

theorem Tracks.idOf {entry : Entry} {object : Object} (tracks : Tracks matchOn type log entry object) :
    idOf entry = object.id := by
  rw [Stalwart.idOf, tracks.id]

theorem find?_tracks (value : Members) (tracks : List.Forall₂ (Tracks matchOn type log) existing objects) :
    Option.Rel (Tracks matchOn type log) (existing.find? (Stalwart.isMatch matchOn value))
      (objects.find? fun object => Stalwart.isMatch matchOn value object.entry) :=
  find?_forall₂ tracks fun _ _ tracks => tracks.isMatch

theorem Tracks.mono {entry : Entry} {object : Object} {more : List Upsert}
    (tracks : Tracks matchOn type log entry object) : Tracks matchOn type (log ++ more) entry object :=
  ⟨tracks.id, tracks.keys, fun apart => tracks.fresh fun upsert there =>
    apart upsert (List.mem_append_left _ there)⟩

theorem tracks_updateFirst (tracks : List.Forall₂ (Tracks matchOn type log) existing objects)
    (unique : (objects.map Object.id).Nodup) {object : Object}
    (found : objects.find? (fun object => isMatch matchOn value object.entry) = some object)
    (spares : Spares matchOn patch) (unnamed : "id" ∉ Dict.keys patch) :
    List.Forall₂ (Tracks matchOn type (log ++ [⟨type, matchOn, value, object.id⟩]))
      (updateFirst matchOn value patch existing) (patchObjects object.id patch objects) := by
  induction tracks with
  | nil => cases found
  | @cons entry first existing objects tracks rest ih =>
    obtain ⟨other, unique⟩ := List.nodup_cons.mp unique
    rw [List.find?_cons] at found
    rw [updateFirst, tracks.isMatch]
    cases matched : isMatch matchOn value first.entry with
    | true =>
      rw [matched] at found
      obtain rfl := Option.some.inj found
      have elsewhere : patchObjects first.id patch objects = objects := patchObjects_of_not_mem other
      rw [if_pos rfl, patchObjects, List.map_cons, if_pos rfl, ← patchObjects, elsewhere]
      refine .cons ⟨?_, fun key there => ?_, fun apart => ?_⟩ (rest.imp fun _ _ tracks => tracks.mono)
      · rw [overwrite_of_not_mem unnamed]
        exact tracks.id
      · rw [Entry.value, overwrite_of_not_mem (spares key there), Entry.value,
          patched_entry_of_not_mem (spares key there)]
        exact tracks.keys key there
      · exact absurd rfl (apart _ (List.mem_append_right _ List.mem_cons_self) rfl)
    | false =>
      rw [matched] at found
      have there := List.mem_of_find?_eq_some found
      have differs : first.id ≠ object.id := fun same => other (same ▸ List.mem_map_of_mem there)
      rw [if_neg Bool.false_ne_true, patchObjects, List.map_cons, if_neg differs, ← patchObjects]
      exact .cons tracks.mono (ih unique found)

end Tracking

/-! ### What an upsert leaves -/

/-- The object has what the value gives: what can be seen as it is seen, what is write-only as it was
sent. -/
structure Holds (matchOn : List String) (value : Members) (object : Object) : Prop where
  visible : ∀ member ∈ value, member.1 ∉ matchOn → isWriteOnly member.1 member.2 = false →
    object.entry.value member.1 = member.2
  hidden : ∀ member ∈ value, member.1 ≠ "credentials" → isWriteOnly member.1 member.2 = true →
    object.properties member.1 = some member.2

/-- **The upsert finds its object**, which has what the value gives. -/
structure Settled (content : Content) (upsert : Upsert) (object : Object) : Prop where
  found : (content upsert.type).find? (fun object => isMatch upsert.matchOn upsert.value object.entry) =
    some object
  id : object.id = upsert.id
  holds : Holds upsert.matchOn upsert.value object

/-- What an upsert's value may be: it is matched on properties that can be seen, on the id only where it gives
one, and nothing is write-only below a property that can be seen. -/
structure Upsert.Plain (upsert : Upsert) : Prop where
  matched : ∀ key ∈ upsert.matchOn, (key = "id" → "id" ∈ Dict.keys upsert.value) ∧
    isWriteOnly key ((Dict.get upsert.value key).getD .null) = false
  shown : ∀ member ∈ upsert.value, isWriteOnly member.1 member.2 = false → member.2.shown = member.2

/-- Two upserts of a type are matched on the same properties, and not all of them are equal. -/
def Upsert.Apart (first second : Upsert) : Prop :=
  first.type = second.type → first.matchOn = second.matchOn ∧
    ∃ key ∈ first.matchOn, (Dict.get first.value key).getD .null ≠ (Dict.get second.value key).getD .null

/-- **An orderly run**: its upserts are plain and apart, and no update is of a type that is upserted. -/
structure Orderly (run : Run) : Prop where
  plain : ∀ upsert ∈ run.upserts, upsert.Plain
  apart : run.upserts.Pairwise Upsert.Apart
  separate : ∀ type id value, Call.write type id value ∈ run.calls →
    ∀ upsert ∈ run.upserts, upsert.type ≠ type

instance (upsert : Upsert) : Decidable upsert.Plain :=
  decidable_of_iff
    ((∀ key ∈ upsert.matchOn, (key = "id" → "id" ∈ Dict.keys upsert.value) ∧
        isWriteOnly key ((Dict.get upsert.value key).getD .null) = false) ∧
      ∀ member ∈ upsert.value, isWriteOnly member.1 member.2 = false → member.2.shown = member.2)
    ⟨fun ⟨matched, shown⟩ => ⟨matched, shown⟩, fun ⟨matched, shown⟩ => ⟨matched, shown⟩⟩

instance (first second : Upsert) : Decidable (first.Apart second) :=
  inferInstanceAs (Decidable (first.type = second.type → first.matchOn = second.matchOn ∧
    ∃ key ∈ first.matchOn, (Dict.get first.value key).getD .null ≠ (Dict.get second.value key).getD .null))

/-- The type of an update of an object. -/
def Call.writes : Call → Option String
  | .write type _ _ => some type
  | _ => none

instance (run : Run) : Decidable (Orderly run) :=
  decidable_of_iff
    ((∀ upsert ∈ run.upserts, upsert.Plain) ∧ run.upserts.Pairwise Upsert.Apart ∧
      ∀ call ∈ run.calls, ∀ upsert ∈ run.upserts, call.writes ≠ some upsert.type)
    ⟨fun ⟨plain, apart, separate⟩ => ⟨plain, apart, fun type id value written upsert there same =>
        separate _ written upsert there (congrArg some same.symm)⟩,
      fun ⟨plain, apart, separate⟩ => ⟨plain, apart, fun call made upsert there same => by
        cases call with
        | write type id value => exact separate type id value made upsert there (Option.some.inj same).symm
        | create type object => cases same
        | patch type id patch => cases same
        | delete type id => cases same⟩⟩

section Settle

variable {server : Server} {type label : String} {matchOn : List String} {existing existing' : List Entry}
  {run run' : Run} {value : Members}

/-- What an orderly run has done before is orderly. -/
theorem Orderly.before (orderly : Orderly run') (grows : Grows run run') : Orderly run where
  plain upsert there := orderly.plain upsert (grows.upserts.subset there)
  apart := orderly.apart.sublist grows.upserts.sublist
  separate type id value written upsert there :=
    orderly.separate type id value (grows.calls.subset written) upsert (grows.upserts.subset there)

theorem ids_apart {first second : Upsert} {content : Content} {object : Object}
    (identified : Identified content) (apart : first.Apart second) (same : first.type = second.type)
    (settled : Settled content first object) {other : Object} (there : other ∈ content second.type)
    (matches' : isMatch second.matchOn second.value other.entry = true) : first.id ≠ other.id := by
  intro equal
  obtain ⟨keys, key, among, differs⟩ := apart same
  have mine : object ∈ content second.type := same ▸ List.mem_of_find?_eq_some settled.found
  obtain rfl := List.inj_on_of_nodup_map (identified second.type) mine there (settled.id.trans equal)
  have matched := List.find?_some settled.found
  rw [isMatch, List.all_eq_true] at matched matches'
  have ofFirst := of_decide_eq_true (matched key among)
  have ofSecond := of_decide_eq_true (matches' key (keys ▸ among))
  exact differs (ofFirst.symm.trans ofSecond)

theorem spares_patchOf {upsert : Upsert} (plain : upsert.Plain) (once : (Dict.keys upsert.value).Nodup)
    (found : Entry) :
    Spares upsert.matchOn (patchOf upsert.matchOn upsert.value found) := by
  intro key among there
  obtain ⟨member, patched, rfl⟩ := List.mem_map.mp there
  obtain ⟨given, -, hidden | ⟨unmatched, -⟩⟩ := mem_patchOf.mp patched
  · have got := (Dict.get_eq_some once).mpr given
    have visible := (plain.matched member.1 among).2
    rw [got, Option.getD_some, hidden] at visible
    cases visible
  · exact unmatched among

theorem holds_patched {upsert : Upsert} (plain : upsert.Plain) (once : (Dict.keys upsert.value).Nodup)
    {object : Object}
    (unnamed : "id" ∉ Dict.keys (patchOf upsert.matchOn upsert.value object.entry)) :
    Holds upsert.matchOn upsert.value
      (object.patched (patchOf upsert.matchOn upsert.value object.entry)) := by
  have among : ∀ member ∈ patchOf upsert.matchOn upsert.value object.entry, member ∈ upsert.value :=
    fun member there => (mem_patchOf.mp there).1
  have got : ∀ {member : String × Value}, member ∈ patchOf upsert.matchOn upsert.value object.entry →
      Dict.get (patchOf upsert.matchOn upsert.value object.entry) member.1 = some member.2 :=
    fun there => get_of_subset once among there
  constructor
  · intro member given unmatched visible
    have named : member.1 ≠ "credentials" := by
      intro same
      rw [isWriteOnly, same] at visible
      simp [writeOnlyKeys] at visible
    by_cases differs : object.entry.value member.1 = member.2
    · have absent : member.1 ∉ Dict.keys (patchOf upsert.matchOn upsert.value object.entry) := by
        intro there
        obtain ⟨other, patched, same⟩ := List.mem_map.mp there
        have equal := List.inj_on_of_nodup_map once (among other patched) given same
        subst equal
        obtain ⟨-, -, hidden | ⟨-, -, changed⟩⟩ := mem_patchOf.mp patched
        · rw [visible] at hidden
          cases hidden
        · exact changed differs
      rw [Entry.value, patched_entry_of_not_mem absent]
      exact differs
    · have there : member ∈ patchOf upsert.matchOn upsert.value object.entry :=
        mem_patchOf.mpr ⟨given, named, Or.inr ⟨unmatched, visible, differs⟩⟩
      have other : member.1 ≠ "id" := fun same => unnamed (same ▸ List.mem_map_of_mem there)
      rw [Entry.value, patched_entry other (got there) visible, Option.getD_some,
        plain.shown member given visible]
  · intro member given named hidden
    have there : member ∈ patchOf upsert.matchOn upsert.value object.entry :=
      mem_patchOf.mpr ⟨given, named, Or.inl hidden⟩
    simp only [Object.patched, overwrite, got there, Option.some_or]

theorem holds_new {upsert : Upsert} (plain : upsert.Plain) (once : (Dict.keys upsert.value).Nodup)
    {object : Object}
    (made : object.properties = fun key => Dict.get upsert.value key)
    (unnamed : "id" ∉ Dict.keys upsert.value) : Holds upsert.matchOn upsert.value object := by
  constructor
  · intro member given _ visible
    have other : member.1 ≠ "id" := fun same => unnamed (same ▸ List.mem_map_of_mem given)
    have got := (Dict.get_eq_some once).mpr given
    simp only [Entry.value, Object.entry, if_neg other, made, got, Option.filter_some, visible,
      Bool.not_false, if_true, Option.map_some, Option.getD_some]
    exact plain.shown member given visible
  · intro member given _ _
    rw [made]
    exact (Dict.get_eq_some once).mpr given

theorem isMatch_new {upsert : Upsert} (plain : upsert.Plain) (once : (Dict.keys upsert.value).Nodup)
    {object : Object}
    (made : object.properties = fun key => Dict.get upsert.value key)
    (unnamed : "id" ∉ Dict.keys upsert.value) :
    isMatch upsert.matchOn upsert.value object.entry = true := by
  refine List.all_eq_true.mpr fun key among => decide_eq_true ?_
  obtain ⟨given, visible⟩ := plain.matched key among
  have other : key ≠ "id" := fun same => unnamed (given same)
  have entry : object.entry.value key =
      (((Dict.get upsert.value key).filter fun value => !isWriteOnly key value).map Value.shown).getD
        .null := by
    rw [Entry.value, Object.entry, if_neg other, made]
  rw [entry]
  cases got : Dict.get upsert.value key with
  | none => rfl
  | some given =>
    have there := (Dict.get_eq_some once).mp got
    rw [got, Option.getD_some] at visible
    rw [Option.filter_some, visible]
    exact plain.shown _ there visible

theorem find?_patchObjects {id : String} {patch : Members} {objects : List Object}
    (spares : Spares matchOn patch) :
    (patchObjects id patch objects).find? (fun object => isMatch matchOn value object.entry) =
      (objects.find? fun object => isMatch matchOn value object.entry).map fun object =>
        if object.id = id then object.patched patch else object := by
  rw [patchObjects, List.find?_map]
  congr 2
  funext object
  simp only [Function.comp_apply]
  split
  · exact spares.isMatch_patched
  · rfl

/-- **What a run leaves** of its upserts. -/
structure Leaves (run : Run) : Prop where
  identified : Identified run.content
  once : ∀ upsert ∈ run.upserts, (Dict.keys upsert.value).Nodup
  settled : ∀ upsert ∈ run.upserts, ∃ object, Settled run.content upsert object

theorem Settled.elsewhere {content : Content} {upsert : Upsert} {object : Object}
    (settled : Settled content upsert object) (differs : upsert.type ≠ type) (objects : List Object) :
    Settled (Function.update content type objects) upsert object :=
  ⟨by rw [Function.update_of_ne differs]; exact settled.found, settled.id, settled.holds⟩

theorem leaves_creating (leaves : Leaves run) (once : (Dict.keys value).Nodup)
    (absent : (run.content type).find? (fun object => isMatch matchOn value object.entry) = none)
    (unnamed : "id" ∉ Dict.keys value)
    (plain : ∀ upsert ∈ (run.creating server type matchOn label value).upserts, upsert.Plain) :
    Leaves (run.creating server type matchOn label value) := by
  have mine : (⟨type, matchOn, value, (newObject server run.content type value).id⟩ : Upsert).Plain :=
    plain _ (List.mem_append_right _ List.mem_cons_self)
  refine ⟨fun other => ?_, fun upsert there => ?_, fun upsert there => ?_⟩
  · by_cases same : other = type
    · subst same
      simp only [Run.creating, Function.update_self, List.map_append, List.map_singleton]
      refine List.nodup_append.mpr ⟨leaves.identified other, List.nodup_singleton _, ?_⟩
      intro id before id' new same
      have made : id = server.freshId other (run.content other) := same.trans (List.mem_singleton.mp new)
      exact server.fresh other (run.content other) (made ▸ before)
    · simp only [Run.creating, Function.update_of_ne same]
      exact leaves.identified other
  · rcases List.mem_append.mp there with before | new
    · exact leaves.once upsert before
    · obtain rfl := List.mem_singleton.mp new
      exact once
  · rcases List.mem_append.mp there with before | new
    · obtain ⟨object, settled⟩ := leaves.settled upsert before
      by_cases same : upsert.type = type
      · refine ⟨object, ?_, settled.id, settled.holds⟩
        subst same
        simp only [Run.creating, Function.update_self, List.find?_append, settled.found, Option.some_or]
      · exact ⟨object, settled.elsewhere same _⟩
    · obtain rfl := List.mem_singleton.mp new
      have matched : isMatch matchOn value (newObject server run.content type value).entry = true :=
        isMatch_new mine once rfl unnamed
      refine ⟨newObject server run.content type value, ?_, rfl, holds_new mine once rfl unnamed⟩
      simp only [Run.creating, Function.update_self, List.find?_append, absent, Option.none_or,
        List.find?_singleton, matched, if_true]

theorem leaves_matching (leaves : Leaves run) (once : (Dict.keys value).Nodup) {object : Object}
    (found : (run.content type).find? (fun object => isMatch matchOn value object.entry) = some object)
    (unnamed : "id" ∉ Dict.keys (patchOf matchOn value object.entry))
    (plain : ∀ upsert ∈ (run.matching type matchOn label value object.entry).upserts, upsert.Plain)
    (apart : ∀ upsert ∈ run.upserts, upsert.Apart ⟨type, matchOn, value, object.id⟩) :
    Leaves (run.matching type matchOn label value object.entry) := by
  have named : idOf object.entry = object.id := by rw [idOf, object.entry_id]
  have there := List.mem_of_find?_eq_some found
  have matched := List.find?_some found
  have mine : (⟨type, matchOn, value, idOf object.entry⟩ : Upsert).Plain :=
    plain _ (List.mem_append_right _ List.mem_cons_self)
  have spares : Spares matchOn (patchOf matchOn value object.entry) := spares_patchOf mine once object.entry
  refine ⟨fun other => ?_, fun upsert there => ?_, fun upsert there' => ?_⟩
  · by_cases same : other = type
    · subst same
      simp only [Run.matching, Function.update_self, map_id_patchObjects]
      exact leaves.identified other
    · simp only [Run.matching, Function.update_of_ne same]
      exact leaves.identified other
  · rcases List.mem_append.mp there with before | new
    · exact leaves.once upsert before
    · obtain rfl := List.mem_singleton.mp new
      exact once
  · rcases List.mem_append.mp there' with before | new
    · obtain ⟨other, settled⟩ := leaves.settled upsert before
      by_cases same : upsert.type = type
      · have differs := ids_apart leaves.identified (apart upsert before) same settled there matched
        have keys := (apart upsert before same).1
        refine ⟨other, ?_, settled.id, settled.holds⟩
        have before := settled.found
        rw [same] at before ⊢
        simp only [Run.matching, Function.update_self]
        rw [keys] at before ⊢
        rw [find?_patchObjects spares, before, Option.map_some, settled.id, named, if_neg differs]
      · exact ⟨other, settled.elsewhere same _⟩
    · obtain rfl := List.mem_singleton.mp new
      refine ⟨object.patched (patchOf matchOn value object.entry), ?_, named.symm,
        holds_patched mine once unnamed⟩
      simp only [Run.matching, Function.update_self]
      rw [find?_patchObjects spares, found, Option.map_some, named, if_pos rfl]

theorem leaves_upserted (leaves : Leaves run) (once : (Dict.keys value).Nodup)
    (tracks : List.Forall₂ (Tracks matchOn type run.upserts) existing (run.content type))
    (step : Upserted server type matchOn existing run label value existing' run') (orderly : Orderly run') :
    Leaves run' ∧ List.Forall₂ (Tracks matchOn type run'.upserts) existing' (run'.content type) := by
  have pairs := find?_tracks value tracks
  cases step with
  | creating absent unnamed =>
    rw [absent] at pairs
    cases none : (run.content type).find? fun object => isMatch matchOn value object.entry with
    | some object => rw [none] at pairs; cases pairs
    | none =>
      refine ⟨leaves_creating leaves once none unnamed orderly.plain, ?_⟩
      simp only [Run.creating, Function.update_self]
      refine List.rel_append (tracks.imp fun _ _ tracks => tracks.mono) (.cons ?_ .nil)
      exact ⟨Object.entry_id _, fun _ _ => rfl, fun _ => rfl⟩
  | matching found first allowed =>
    rw [first] at pairs
    cases there : (run.content type).find? fun object => isMatch matchOn value object.entry with
    | none => rw [there] at pairs; cases pairs
    | some object =>
      rw [there] at pairs
      cases pairs with
      | some pair =>
        have others := (List.pairwise_append.mp orderly.apart).2.2
        have among := List.mem_of_find?_eq_some there
        have matched := List.find?_some there
        have untouched : found = object.entry := by
          refine pair.fresh fun upsert before same => ?_
          obtain ⟨own, settled⟩ := leaves.settled upsert before
          exact ids_apart leaves.identified (others upsert before _ List.mem_cons_self) same settled among
            matched
        subst untouched
        have named : idOf object.entry = object.id := pair.idOf
        have mine : (⟨type, matchOn, value, idOf object.entry⟩ : Upsert).Plain :=
          orderly.plain _ (List.mem_append_right _ List.mem_cons_self)
        have unnamed : "id" ∉ Dict.keys (patchOf matchOn value object.entry) := by
          by_cases nothing : patchOf matchOn value object.entry = []
          · rw [nothing]
            exact List.not_mem_nil
          · exact (allowed nothing).1
        refine ⟨leaves_matching leaves once there unnamed orderly.plain fun upsert before => ?_, ?_⟩
        · rw [← named]
          exact others upsert before _ List.mem_cons_self
        · simp only [Run.matching, Function.update_self, named]
          exact tracks_updateFirst tracks (leaves.identified type) there
            (spares_patchOf mine once object.entry) unnamed

/-! ### The first run -/

/-- **What the first run leaves**: what it upserted is settled, and the types it did not upsert have the
objects that they had. -/
structure Began (start : Content) (run : Run) : Prop where
  leaves : Leaves run
  kept : ∀ type, (∀ upsert ∈ run.upserts, upsert.type ≠ type) →
    (run.content type).map Object.id = (start type).map Object.id

theorem began_upsertAll {start : Content} {values : List (String × Members)} (began : Began start run)
    (tracks : List.Forall₂ (Tracks matchOn type run.upserts) existing (run.content type))
    (done : upsertAll server type matchOn existing run values = .ok run') (orderly : Orderly run') :
    Began start run' := by
  induction values generalizing existing run with
  | nil =>
    obtain rfl := Except.ok.inj done
    exact began
  | cons entry rest ih =>
    obtain ⟨label, value⟩ := entry
    obtain ⟨existing₁, run₁, first, done⟩ := upsertAll_cons done
    obtain ⟨members, -, step⟩ := upsertValue_cases first
    have before := orderly.before (grows_upsertAll done)
    obtain ⟨leaves, tracks⟩ := leaves_upserted began.leaves (nodup_keys_dictOf members) tracks step before
    refine ih ⟨leaves, fun other none => ?_⟩ tracks done
    obtain ⟨id, logged, -, -, elsewhere⟩ := step.logged
    rw [logged] at none
    have differs : other ≠ type := (none _ (List.mem_append_right _ List.mem_cons_self)).symm
    rw [elsewhere other differs]
    exact began.kept other fun upsert there => none upsert (List.mem_append_left _ there)

theorem began_writeObject {start : Content} {id report : String} (began : Began start run)
    (done : writeObject run type id value report = .ok run') (orderly : Orderly run') : Began start run' := by
  obtain ⟨-, -, rfl⟩ := writeObject_cases done
  have apart : ∀ upsert ∈ run.upserts, upsert.type ≠ type :=
    orderly.separate type id value (List.mem_append_right _ List.mem_cons_self)
  have ids : ∀ other, (Function.update run.content type (patchObjects id value (run.content type)) other).map
      Object.id = (run.content other).map Object.id := by
    intro other
    by_cases same : other = type
    · rw [same, Function.update_self, map_id_patchObjects]
    · rw [Function.update_of_ne same]
  refine ⟨⟨fun other => ?_, began.leaves.once, fun upsert there => ?_⟩, fun other none => ?_⟩
  · exact (ids other).symm ▸ began.leaves.identified other
  · obtain ⟨object, settled⟩ := began.leaves.settled upsert there
    exact ⟨object, settled.elsewhere (apart upsert there) _⟩
  · exact (ids other).trans (began.kept other none)

/-- A plan without destroy operations. -/
def Operation.isDestroy : Operation → Bool
  | .destroy _ _ => true
  | _ => false

theorem began_applyOperation {start : Content} {operation : Operation} (began : Began start run)
    (stays : operation.isDestroy = false) (done : applyOperation server run operation = .ok run')
    (orderly : Orderly run') : Began start run' := by
  cases operation with
  | upsert type matchOn value => exact began_upsertAll began (tracks_getAll _ _ _ _) done orderly
  | create type matchOn value => exact began_upsertAll began (tracks_getAll _ _ _ _) done orderly
  | update type id value =>
    obtain ⟨target, members, report, written, -⟩ := applyUpdate_cases done
    exact began_writeObject began written orderly
  | destroy type value => cases stays
  | unsupported kind => cases done

theorem began_applyPlan {start : Content} {plan : List Operation} (began : Began start run)
    (stay : ∀ operation ∈ plan, operation.isDestroy = false)
    (done : applyPlan server run plan = .ok run') (orderly : Orderly run') : Began start run' := by
  induction plan generalizing run with
  | nil =>
    obtain rfl := Except.ok.inj done
    exact began
  | cons operation rest ih =>
    obtain ⟨next, first, done⟩ := applyPlan_cons done
    refine ih ?_ (fun operation there => stay operation (List.mem_cons_of_mem _ there)) done
    exact began_applyOperation began (stay operation List.mem_cons_self) first
      (orderly.before (grows_applyPlan done))

end Settle

/-! ### The second time -/

section Again

variable {server : Server} {type label : String} {matchOn : List String} {existing : List Entry}
  {run : Run} {object : Object}

theorem patchObjects_of_holds {id : String} {patch : Members} {objects : List Object}
    (unique : (objects.map Object.id).Nodup) (there : object ∈ objects) (same : object.id = id)
    (has : ∀ key given, Dict.get patch key = some given → object.properties key = some given) :
    patchObjects id patch objects = objects := by
  refine (List.map_congr_left fun other among => ?_).trans (List.map_id _)
  by_cases mine : other.id = id
  · obtain rfl := List.inj_on_of_nodup_map unique among there (mine.trans same.symm)
    have still : overwrite patch other.properties = other.properties := by
      funext key
      rw [overwrite]
      cases got : Dict.get patch key with
      | none => exact Option.none_or
      | some given => rw [Option.some_or, has key given got]
    rw [if_pos mine, Object.patched, still]
    rfl
  · exact if_neg mine

theorem visibleChanges_of_holds {value : Members} (holds : Holds matchOn value object) :
    visibleChanges matchOn value object.entry = [] := by
  refine List.filter_eq_nil_iff.mpr fun member given changed => ?_
  obtain ⟨unmatched, -, visible, differs⟩ := of_decide_eq_true changed
  exact differs (holds.visible member given unmatched visible)

theorem upsertValue_again {members : List (String × Value)} {value : List (String × Value)} {upsert : Upsert}
    (resolved : Value.resolveMembers run.labels value = some members)
    (is : upsert.type = type ∧ upsert.matchOn = matchOn ∧ upsert.value = dictOf members)
    (tracks : List.Forall₂ (Tracks matchOn type run.upserts) existing (run.content type))
    (identified : Identified run.content) (settled : Settled run.content upsert object)
    (fresh : ∀ other ∈ run.upserts, other.type = type → other.id ≠ object.id)
    (unnamed : "id" ∉ Dict.keys (secretsOf (dictOf members))) :
    upsertValue server type matchOn existing run label value =
        .ok (updateFirst matchOn (dictOf members) (secretsOf (dictOf members)) existing,
          run.matching type matchOn label (dictOf members) object.entry) ∧
      visibleChanges matchOn (dictOf members) object.entry = [] ∧
      (run.matching type matchOn label (dictOf members) object.entry).content = run.content ∧
      patchObjects object.id (secretsOf (dictOf members)) (run.content type) = run.content type := by
  obtain ⟨rfl, rfl, given⟩ := is
  have holds : Holds upsert.matchOn (dictOf members) object := given ▸ settled.holds
  have found := settled.found
  rw [given] at found
  have there := List.mem_of_find?_eq_some found
  have unseen := visibleChanges_of_holds holds
  have patch : patchOf upsert.matchOn (dictOf members) object.entry = secretsOf (dictOf members) := by
    rw [patchOf, unseen, List.nil_append]
  have named : idOf object.entry = object.id := by rw [idOf, object.entry_id]
  have pairs := find?_tracks (dictOf members) tracks
  rw [found] at pairs
  cases first : existing.find? (isMatch upsert.matchOn (dictOf members)) with
  | none => rw [first] at pairs; cases pairs
  | some entry =>
    rw [first] at pairs
    cases pairs with
    | some pair =>
      obtain rfl := pair.fresh fresh
      have still : patchObjects object.id (secretsOf (dictOf members)) (run.content upsert.type) =
          run.content upsert.type := by
        refine patchObjects_of_holds (identified upsert.type) there rfl fun key sent got => ?_
        obtain ⟨member, among, rfl⟩ := Option.map_eq_some_iff.mp got
        have key' : member.1 = key := by
          have matched := List.find?_some among
          exact of_decide_eq_true matched
        obtain ⟨own, secret⟩ := List.mem_filter.mp (List.mem_of_find?_eq_some among)
        obtain ⟨other, hidden⟩ := of_decide_eq_true secret
        rw [← key']
        exact holds.hidden member own other hidden
      refine ⟨?_, unseen, ?_, still⟩
      · rw [upsertValue_of_matching resolved first fun _ => ?_, patch]
        exact ⟨patch ▸ unnamed, named ▸ List.mem_map_of_mem there⟩
      · rw [Run.matching, patch, named, still, Function.update_eq_self]

end Again

/-! ### The two side by side -/

/-- Properties written to objects, by their ids. -/
def writtenTo (written : String → Entry) (objects : List Object) : List Object :=
  objects.map fun object =>
    { object with properties := fun key => (written object.id key).or (object.properties key) }

theorem writtenTo_none (objects : List Object) : writtenTo (fun _ _ => none) objects = objects := by
  simp only [writtenTo, Option.none_or, List.map_id']

theorem writtenTo_writtenTo (written : String → Entry) (objects : List Object) :
    writtenTo written (writtenTo written objects) = writtenTo written objects := by
  rw [writtenTo, writtenTo, List.map_map]
  refine List.map_congr_left fun object _ => ?_
  simp only [Function.comp_apply, ← Option.or_assoc, Option.or_self]

theorem map_id_writtenTo (written : String → Entry) (objects : List Object) :
    (writtenTo written objects).map Object.id = objects.map Object.id := by
  rw [writtenTo, List.map_map]
  rfl

/-- What is written after a patch of one object. -/
def alsoWritten (id : String) (patch : Members) (written : String → Entry) : String → Entry := fun other =>
  if other = id then overwrite patch (written other) else written other

theorem patchObjects_writtenTo (id : String) (patch : Members) (written : String → Entry)
    (objects : List Object) :
    patchObjects id patch (writtenTo written objects) = writtenTo (alsoWritten id patch written) objects := by
  rw [patchObjects, writtenTo, writtenTo, List.map_map]
  refine List.map_congr_left fun object _ => ?_
  by_cases same : object.id = id
  · simp only [Function.comp_apply, alsoWritten, if_pos same, Object.patched, overwrite, Option.or_assoc]
    rfl
  · simp only [Function.comp_apply, alsoWritten, if_neg same]

/-- An update is of this type. -/
def Run.Writes (run : Run) (type : String) : Prop := ∃ id value, Call.write type id value ∈ run.calls

/-- **The second apply beside the first**, where both have done the same operations: `last` is what the
first apply ends with. -/
structure Lockstep (start : Content) (last first second : Run) : Prop where
  ids : second.ids = first.ids
  upserts : second.upserts = first.upserts
  unchanged : second.unchanged = first.upserts.map Upsert.id
  creates : ∀ type object, Call.create type object ∉ second.calls
  written : ∃ written : String → String → Entry,
    (∀ type, ¬ last.Writes type → written type = fun _ _ => none) ∧
    (∀ type, last.Writes type → first.content type = writtenTo (written type) (start type)) ∧
    ∀ type, second.content type = writtenTo (written type) (last.content type)

section Side

variable {server : Server} {type label : String} {matchOn : List String} {start : Content}
  {last first first' second : Run} {existing existing' existing₂ : List Entry}

theorem Lockstep.labels (lock : Lockstep start last first second) : second.labels = first.labels := by
  funext label
  rw [Run.labels, Run.labels, lock.ids]

theorem Lockstep.unwritten (lock : Lockstep start last first second) (never : ¬ last.Writes type) :
    second.content type = last.content type := by
  obtain ⟨written, none, -, same⟩ := lock.written
  rw [same, none type never, writtenTo_none]

theorem Lockstep.identified (lock : Lockstep start last first second) (leaves : Leaves last) :
    Identified second.content := by
  obtain ⟨written, -, -, same⟩ := lock.written
  intro type
  rw [same, map_id_writtenTo]
  exact leaves.identified type

theorem lockstep_upserted {value : List (String × Value)} {members : List (String × Value)}
    (lock : Lockstep start last first second) (leaves : Leaves last)
    (grows : Grows first' last) (orderly : Orderly last)
    (resolved : Value.resolveMembers first.labels value = some members)
    (step : Upserted server type matchOn existing first label (dictOf members) existing' first')
    (tracks : List.Forall₂ (Tracks matchOn type second.upserts) existing₂ (second.content type)) :
    ∃ existing₃ second', upsertValue server type matchOn existing₂ second label value =
        .ok (existing₃, second') ∧
      Lockstep start last first' second' ∧ second'.updated = second.updated ∧
      List.Forall₂ (Tracks matchOn type second'.upserts) existing₃ (second'.content type) := by
  obtain ⟨id, logged, ids, unnamed, elsewhere⟩ := step.logged
  have mine : (⟨type, matchOn, dictOf members, id⟩ : Upsert) ∈ last.upserts :=
    grows.upserts.subset (logged ▸ List.mem_append_right _ List.mem_cons_self)
  have never : ¬ last.Writes type := fun ⟨id, value, written⟩ =>
    orderly.separate type id value written _ mine rfl
  obtain ⟨object, settled⟩ := leaves.settled _ mine
  have found := settled.found
  have there := List.mem_of_find?_eq_some found
  have matched := List.find?_some found
  have earlier : ∀ other ∈ second.upserts, other ∈ last.upserts ∧
      other.Apart ⟨type, matchOn, dictOf members, id⟩ := by
    rw [lock.upserts]
    intro other before
    have pairs := (orderly.before grows).apart
    rw [logged] at pairs
    exact ⟨grows.upserts.subset (logged ▸ List.mem_append_left _ before),
      (List.pairwise_append.mp pairs).2.2 other before _ List.mem_cons_self⟩
  have fresh : ∀ other ∈ second.upserts, other.type = type → other.id ≠ object.id := by
    intro other before same
    obtain ⟨own, settled'⟩ := leaves.settled other (earlier other before).1
    exact ids_apart leaves.identified (earlier other before).2 same settled' there matched
  have settled₂ : Settled second.content ⟨type, matchOn, dictOf members, id⟩ object := by
    refine ⟨?_, settled.id, settled.holds⟩
    show (second.content type).find? _ = some object
    rw [lock.unwritten never]
    exact found
  obtain ⟨done, unseen, still, patched⟩ := upsertValue_again (lock.labels ▸ resolved) ⟨rfl, rfl, rfl⟩ tracks
    (lock.identified leaves) settled₂ fresh unnamed
  have named : idOf object.entry = id := by
    rw [idOf, object.entry_id]
    exact settled.id
  refine ⟨_, _, done, ⟨?_, ?_, ?_, ?_, ?_⟩, ?_, ?_⟩
  · rw [Run.matching, ids, lock.ids, named]
  · rw [Run.matching, logged, lock.upserts, named]
  · simp only [Run.matching, unseen, if_true, logged, lock.unchanged, List.map_append, List.map_singleton,
      named]
  · intro type' object' created
    rw [Run.matching] at created
    rcases List.mem_append.mp created with before | new
    · exact lock.creates type' object' before
    · split at new
      · cases new
      · cases List.mem_singleton.mp new
  · obtain ⟨written, none, ofFirst, ofSecond⟩ := lock.written
    refine ⟨written, none, fun other writes => ?_, fun other => ?_⟩
    · have differs : other ≠ type := fun same => never (same ▸ writes)
      rw [elsewhere other differs]
      exact ofFirst other writes
    · rw [still]
      exact ofSecond other
  · simp only [Run.matching, unseen, if_true]
  · have spares : Spares matchOn (secretsOf (dictOf members)) := by
      intro key among there
      refine spares_patchOf (orderly.plain _ mine) (nodup_keys_dictOf members) object.entry key among ?_
      rw [patchOf, Dict.keys, List.map_append]
      exact List.mem_append_right _ there
    have tracked := tracks_updateFirst tracks (lock.identified leaves type) settled₂.found spares unnamed
    rw [patched] at tracked
    rw [still]
    have same : second.upserts ++ [⟨type, matchOn, dictOf members, object.id⟩] =
        (second.matching type matchOn label (dictOf members) object.entry).upserts := by
      simp only [Run.matching, idOf, object.entry_id]
    rw [← same]
    exact tracked

theorem lockstep_upsertAll {values : List (String × Members)}
    (lock : Lockstep start last first second) (leaves : Leaves last)
    (done : upsertAll server type matchOn existing first values = .ok first')
    (grows : Grows first' last) (orderly : Orderly last)
    (tracks : List.Forall₂ (Tracks matchOn type second.upserts) existing₂ (second.content type)) :
    ∃ second', upsertAll server type matchOn existing₂ second values = .ok second' ∧
      Lockstep start last first' second' ∧ second'.updated = second.updated := by
  induction values generalizing existing existing₂ first second with
  | nil =>
    obtain rfl := Except.ok.inj done
    exact ⟨second, rfl, lock, rfl⟩
  | cons entry rest ih =>
    obtain ⟨label, value⟩ := entry
    obtain ⟨existing₁, first₁, once, done⟩ := upsertAll_cons done
    obtain ⟨members, resolved, step⟩ := upsertValue_cases once
    obtain ⟨existing₃, second₁, again, lock, same, tracks⟩ :=
      lockstep_upserted lock leaves ((grows_upsertAll done).trans grows) orderly resolved step tracks
    obtain ⟨second', more, lock, same'⟩ := ih lock done tracks
    refine ⟨second', ?_, lock, same'.trans same⟩
    rw [upsertAll, again]
    exact more

theorem lockstep_writeObject {id report : String} {value : Members}
    (lock : Lockstep start last first second) (began : Began start last)
    (done : writeObject first type id value report = .ok first')
    (grows : Grows first' last) (orderly : Orderly last) :
    ∃ second', writeObject second type id value report = .ok second' ∧
      Lockstep start last first' second' ∧ second'.updated = second.updated ++ [report] := by
  obtain ⟨unnamed, there, rfl⟩ := writeObject_cases done
  have written : Call.write type id value ∈ last.calls :=
    grows.calls.subset (List.mem_append_right _ List.mem_cons_self)
  have writes : last.Writes type := ⟨id, value, written⟩
  obtain ⟨given, none, ofFirst, ofSecond⟩ := lock.written
  have kept := began.kept type (orderly.separate type id value written)
  have among : id ∈ (second.content type).map Object.id := by
    rw [ofSecond, map_id_writtenTo, kept]
    rwa [ofFirst type writes, map_id_writtenTo] at there
  refine ⟨_, writeObject_of_mem unnamed among, ⟨lock.ids, lock.upserts, lock.unchanged, ?_, ?_⟩, rfl⟩
  · intro type' object created
    rcases List.mem_append.mp created with before | new
    · exact lock.creates type' object before
    · cases List.mem_singleton.mp new
  · refine ⟨Function.update given type (alsoWritten id value (given type)), fun other never => ?_,
      fun other writes => ?_, fun other => ?_⟩
    · have differs : other ≠ type := fun same => never (same ▸ writes)
      rw [Function.update_of_ne differs]
      exact none other never
    · by_cases same : other = type
      · subst same
        simp only [Run.writing, Function.update_self, ofFirst other writes, patchObjects_writtenTo]
      · simp only [Run.writing, Function.update_of_ne same]
        exact ofFirst other writes
    · by_cases same : other = type
      · subst same
        simp only [Run.writing, Function.update_self, ofSecond other, patchObjects_writtenTo]
      · simp only [Run.writing, Function.update_of_ne same]
        exact ofSecond other

/-- An update of an object or a singleton. -/
def Operation.isUpdate : Operation → Bool
  | .update _ _ _ => true
  | _ => false

theorem lockstep_applyOperation {operation : Operation} (lock : Lockstep start last first second)
    (began : Began start last) (stays : operation.isDestroy = false)
    (done : applyOperation server first operation = .ok first') (grows : Grows first' last)
    (orderly : Orderly last) :
    ∃ second', applyOperation server second operation = .ok second' ∧ Lockstep start last first' second' ∧
      second'.updated.length = second.updated.length + if operation.isUpdate then 1 else 0 := by
  cases operation with
  | upsert type matchOn value =>
    obtain ⟨second', again, lock, same⟩ :=
      lockstep_upsertAll lock began.leaves done grows orderly (tracks_getAll _ _ _ _)
    exact ⟨second', again, lock, congrArg List.length same⟩
  | create type matchOn value =>
    obtain ⟨second', again, lock, same⟩ :=
      lockstep_upsertAll lock began.leaves done grows orderly (tracks_getAll _ _ _ _)
    exact ⟨second', again, lock, congrArg List.length same⟩
  | update type id value =>
    obtain ⟨target, members, report, written, again⟩ := applyUpdate_cases done
    obtain ⟨second', done, lock', same⟩ := lockstep_writeObject lock began written grows orderly
    refine ⟨second', (again second lock.labels).trans done, lock', ?_⟩
    rw [same, List.length_append]
    rfl
  | destroy type value => cases stays
  | unsupported kind => cases done

theorem lockstep_applyPlan {plan : List Operation} (lock : Lockstep start last first second)
    (began : Began start last) (stay : ∀ operation ∈ plan, operation.isDestroy = false)
    (done : applyPlan server first plan = .ok last) (orderly : Orderly last) :
    ∃ second', applyPlan server second plan = .ok second' ∧ Lockstep start last last second' ∧
      second'.updated.length = second.updated.length + plan.countP Operation.isUpdate := by
  induction plan generalizing first second with
  | nil =>
    obtain rfl := Except.ok.inj done
    exact ⟨second, rfl, lock, rfl⟩
  | cons operation rest ih =>
    obtain ⟨next, once, done⟩ := applyPlan_cons done
    obtain ⟨second₁, again, lock, counted⟩ :=
      lockstep_applyOperation lock began (stay operation List.mem_cons_self) once (grows_applyPlan done)
        orderly
    obtain ⟨second', more, lock, counted'⟩ :=
      ih lock (fun operation there => stay operation (List.mem_cons_of_mem _ there)) done
    refine ⟨second', ?_, lock, ?_⟩
    · rw [applyPlan, again]
      exact more
    · rw [counted', counted, List.countP_cons]
      omega

end Side

/-! ### Untouched -/

section Untouched

variable {server : Server} {start : Content} {run run' : Run}

/-- An operation is about this object. -/
inductive Run.Names (run : Run) (type id : String) : Prop
  | upserted {upsert : Upsert} : upsert ∈ run.upserts → upsert.type = type → upsert.id = id →
      Run.Names run type id
  | written {value : Members} : Call.write type id value ∈ run.calls → Run.Names run type id
  | deleted : Call.delete type id ∈ run.calls → Run.Names run type id

theorem Run.Names.grows {type id : String} (names : run.Names type id) (grows : Grows run run') :
    run'.Names type id := by
  cases names with
  | upserted there same named => exact .upserted (grows.upserts.subset there) same named
  | written there => exact .written (grows.calls.subset there)
  | deleted there => exact .deleted (grows.calls.subset there)

theorem mem_patchObjects {id : String} {patch : Members} {objects : List Object} {object : Object}
    (there : object ∈ objects) (differs : object.id ≠ id) : object ∈ patchObjects id patch objects :=
  List.mem_map.mpr ⟨object, there, if_neg differs⟩

theorem mem_update_patchObjects {type type' id : String} {patch : Members} {object : Object}
    (there : object ∈ run.content type) (differs : type = type' → object.id ≠ id) :
    object ∈ Function.update run.content type' (patchObjects id patch (run.content type')) type := by
  by_cases same : type = type'
  · subst same
    rw [Function.update_self]
    exact mem_patchObjects there (differs rfl)
  · rwa [Function.update_of_ne same]

theorem Step.untouched {type : String} {object : Object} (step : Step server run run')
    (there : object ∈ run.content type) : object ∈ run'.content type ∨ run'.Names type object.id := by
  cases step with
  | @upserted type' matchOn existing existing' _ _ label value step =>
    cases step with
    | creating absent unnamed =>
      refine Or.inl ?_
      by_cases same : type = type'
      · subst same
        simp only [Run.creating, Function.update_self]
        exact List.mem_append_left _ there
      · simpa only [Run.creating, Function.update_of_ne same] using there
    | matching found first allowed =>
      by_cases mine : type' = type ∧ idOf found = object.id
      · exact Or.inr (.upserted (List.mem_append_right _ List.mem_cons_self) mine.1 mine.2)
      · exact Or.inl (mem_update_patchObjects there fun same named => mine ⟨same.symm, named.symm⟩)
  | refused label upsert => exact Or.inl there
  | @wrote _ content type' id value report written =>
    rw [updateObject] at written
    split at written
    · obtain rfl := Option.some.inj written
      by_cases mine : type' = type ∧ id = object.id
      · obtain ⟨rfl, rfl⟩ := mine
        exact Or.inr (.written (List.mem_append_right _ List.mem_cons_self))
      · exact Or.inl (mem_update_patchObjects there fun same named => mine ⟨same.symm, named.symm⟩)
    · cases written
  | deleted _ type' id =>
    by_cases mine : type' = type ∧ id = object.id
    · obtain ⟨rfl, rfl⟩ := mine
      exact Or.inr (.deleted (List.mem_append_right _ List.mem_cons_self))
    · refine Or.inl ?_
      simp only [Run.deleting]
      by_cases same : type = type'
      · subst same
        rw [Function.update_self]
        exact List.mem_filter.mpr ⟨there, decide_eq_true fun named => mine ⟨rfl, named.symm⟩⟩
      · rwa [Function.update_of_ne same]

theorem untouched_steps {type : String} {object : Object}
    (steps : Relation.ReflTransGen (Step server) run run')
    (there : object ∈ run.content type) : object ∈ run'.content type ∨ run'.Names type object.id := by
  induction steps with
  | refl => exact Or.inl there
  | tail _ step ih =>
    rcases ih with still | named
    · exact step.untouched still
    · exact Or.inr (named.grows step.grows)

theorem credentials_not_mem (matchOn : List String) (value : Members) (found : Entry) :
    "credentials" ∉ Dict.keys (patchOf matchOn value found) := by
  intro there
  obtain ⟨member, patched, same⟩ := List.mem_map.mp there
  exact (mem_patchOf.mp patched).2.1 same

theorem unsecret_steps (steps : Relation.ReflTransGen (Step server) run run')
    (before : ∀ type id patch, Call.patch type id patch ∈ run.calls → "credentials" ∉ Dict.keys patch) :
    ∀ type id patch, Call.patch type id patch ∈ run'.calls → "credentials" ∉ Dict.keys patch := by
  induction steps with
  | refl => exact before
  | tail _ step ih =>
    intro type id patch called
    cases step with
    | upserted step =>
      cases step with
      | creating =>
        rcases List.mem_append.mp called with earlier | new
        · exact ih type id patch earlier
        · cases List.mem_singleton.mp new
      | matching found =>
        rcases List.mem_append.mp called with earlier | new
        · exact ih type id patch earlier
        · split at new
          · cases new
          · cases List.mem_singleton.mp new
            exact credentials_not_mem _ _ found
    | refused => exact ih type id patch called
    | wrote =>
      rcases List.mem_append.mp called with earlier | new
      · exact ih type id patch earlier
      · cases List.mem_singleton.mp new
    | deleted =>
      rcases List.mem_append.mp called with earlier | new
      · exact ih type id patch earlier
      · cases List.mem_singleton.mp new

end Untouched

/-! ### The plan twice -/

theorem lockstep_start (start : Content) (last : Run) :
    Lockstep start last (Run.start start) (Run.start last.content) where
  ids := rfl
  upserts := rfl
  unchanged := rfl
  creates _ _ := List.not_mem_nil
  written := ⟨fun _ _ _ => none, fun _ _ => rfl, fun type _ => (writtenTo_none (start type)).symm,
    fun type => (writtenTo_none (last.content type)).symm⟩

theorem began_start {start : Content} (identified : Identified start) : Began start (Run.start start) where
  leaves := ⟨identified, fun _ there => absurd there List.not_mem_nil,
    fun _ there => absurd there List.not_mem_nil⟩
  kept _ _ := rfl

/-- **The second apply of a plan** creates nothing, finds each upserted object unchanged, reports nothing but
its updates, gives each label its id again and leaves the server as it was. And whatever the plan, no upsert
sends credentials to an object there is, and an object that no operation is about stays as it is. -/
theorem reapply_noop (server : Server) (plan : List Operation) (content : Content) :
    ((∀ type id patch,
        Call.patch type id patch ∈ (reachedBy (applyPlan server (Run.start content) plan)).calls →
          "credentials" ∉ Dict.keys patch) ∧
      ∀ type, ∀ object ∈ content type,
        ¬ (reachedBy (applyPlan server (Run.start content) plan)).Names type object.id →
          object ∈ (reachedBy (applyPlan server (Run.start content) plan)).content type) ∧
    ((∀ operation ∈ plan, operation.isDestroy = false) → Identified content →
      ∀ first, applyPlan server (Run.start content) plan = .ok first → Orderly first →
        ∃ second, applyPlan server (Run.start first.content) plan = .ok second ∧
          (∀ type object, Call.create type object ∉ second.calls) ∧
          second.unchanged = first.upserts.map Upsert.id ∧
          second.updated.length = plan.countP Operation.isUpdate ∧
          second.ids = first.ids ∧ second.content = first.content) := by
  have steps := steps_applyPlan server plan (Run.start content)
  refine ⟨⟨?_, fun type object there unnamed => ?_⟩, fun stay identified first done orderly => ?_⟩
  · exact unsecret_steps steps fun _ _ _ there => absurd there List.not_mem_nil
  · exact (untouched_steps steps there).resolve_right unnamed
  · have began : Began content first := began_applyPlan (began_start identified) stay done orderly
    obtain ⟨second, again, lock, counted⟩ :=
      lockstep_applyPlan (lockstep_start content first) began stay done orderly
    refine ⟨second, again, lock.creates, lock.unchanged, ?_, lock.ids, ?_⟩
    · rw [counted]
      exact Nat.zero_add _
    · obtain ⟨written, none, ofFirst, ofSecond⟩ := lock.written
      funext type
      by_cases writes : first.Writes type
      · rw [ofSecond, ofFirst type writes, writtenTo_writtenTo]
      · exact lock.unwritten writes

/-- A domain, its account, and a setting. -/
def domainAndAccount : List Operation :=
  [.upsert "Domain" [] [("mine", [("name", .text "a.test")])],
    .upsert "Account" ["name", "domain"]
      [("one", [("name", .text "one"), ("domain", .text "#mine"), ("secret", .text "s")])],
    .update "Jmap" "" [("size", .num 3)]]

/-- A server that has its singletons only. -/
def bareServer : Content := fun type => if type = "Jmap" then [⟨"singleton", fun _ => none⟩] else []

theorem identified_bareServer : Identified bareServer := by
  intro type
  rw [bareServer]
  split <;> decide

theorem reapply_noop_domain :
    ∃ second, applyPlan longerIds
        (Run.start (reachedBy (applyPlan longerIds (Run.start bareServer) domainAndAccount)).content)
        domainAndAccount = .ok second ∧
      (∀ type object, Call.create type object ∉ second.calls) ∧
      second.unchanged = (reachedBy (applyPlan longerIds (Run.start bareServer) domainAndAccount)).upserts.map
        Upsert.id ∧
      second.updated.length = 1 ∧
      second.ids = (reachedBy (applyPlan longerIds (Run.start bareServer) domainAndAccount)).ids ∧
      second.content = (reachedBy (applyPlan longerIds (Run.start bareServer) domainAndAccount)).content :=
  (reapply_noop longerIds domainAndAccount bareServer).2 (by decide) identified_bareServer _ rfl (by decide)

/-- What a call sends to an object that there is. -/
def Call.sent : Call → Members
  | .patch _ _ sent => sent
  | .write _ _ value => value
  | _ => []

/-- An account, and an update of it. -/
def accountAndUpdate : List Operation :=
  [.upsert "Account" [] [("one", [("name", .text "one")])],
    .update "Account" "#one" [("credentials", .dict [("key", .text "s")])]]

/-- **An object that an update names is reported each time**, and is sent what the update gives, be it
credentials. -/
theorem reported_by_update : ∃ first second,
    applyPlan longerIds (Run.start bareServer) accountAndUpdate = .ok first ∧
    applyPlan longerIds (Run.start first.content) accountAndUpdate = .ok second ∧
    (∃ upsert ∈ second.upserts, upsert.id ∈ second.updated) ∧
    ∃ call ∈ second.calls, "credentials" ∈ Dict.keys call.sent :=
  ⟨reachedBy (applyPlan longerIds (Run.start bareServer) accountAndUpdate),
    reachedBy (applyPlan longerIds
      (Run.start (reachedBy (applyPlan longerIds (Run.start bareServer) accountAndUpdate)).content)
      accountAndUpdate), rfl, rfl, by decide, by decide⟩

end SuiteCloud.Mail.Stalwart
