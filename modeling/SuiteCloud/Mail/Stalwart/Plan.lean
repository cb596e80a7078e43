/-
**Applying a plan to a Stalwart server.**

`PlanApplier` of `suite_cloud/mail/stalwart/client.py`, over a server that keeps the properties it is sent,
gives a new object an id of its own and shows all but the write-only values. An id is the server's to give:
it refuses one that it is sent.

* `Content` — what a server holds; `Object.entry` — an object as it is shown.
* `upsertValue`, `upsertAll` — `_upsert`; `applyOperation` — an operation; `apply` — the plan.
* `Run` — what the applier and the server have come to, with the writes the server took.
* `upsertValue_cases` — **what one upsert does**: it creates an object or patches the one it matches.
* `Step`, `steps_applyPlan` — a plan as steps, also where it raises in the middle.
-/

import Mathlib.Logic.Function.Basic
import Mathlib.Logic.Relation
import SuiteCloud.Mail.Stalwart.Value

namespace SuiteCloud.Mail.Stalwart

open SuiteCloud.Library

/-! ## The server -/

/-- An object, as a dict of its properties. -/
abbrev Entry := String → Option Value

/-- `dict.get`, which gives `None` for what is not there. -/
def Entry.value (entry : Entry) (key : String) : Value := (entry key).getD .null

structure Object where
  id : String
  properties : Entry

/-- An object as the server shows it. -/
def Object.entry (object : Object) : Entry := fun key =>
  if key = "id" then some (.text object.id)
  else ((object.properties key).filter fun value => !isWriteOnly key value).map Value.shown

/-- What a server holds: the objects of each type, in the order it lists them. -/
abbrev Content := String → List Object

/-- What a server does of its own. -/
structure Server where
  /-- The id of a new object of a type. -/
  freshId : String → List Object → String
  fresh : ∀ type objects, freshId type objects ∉ objects.map Object.id
  /-- The objects a query's filter finds. -/
  finds : String → Value → Object → Bool

/-- A server whose new ids are longer than the ones there are. -/
def longerIds : Server where
  freshId _ objects := String.ofList ((objects.map fun object => object.id.toList).flatten ++ ['n'])
  fresh _ objects there := by
    obtain ⟨object, among, same⟩ := List.mem_map.mp there
    have within : object.id.toList.Sublist (objects.map fun object => object.id.toList).flatten :=
      List.sublist_flatten_of_mem (List.mem_map_of_mem among)
    rw [same, String.toList_ofList] at within
    have short := within.length_le
    rw [List.length_append, List.length_singleton] at short
    omega
  finds _ _ _ := false

/-- `dict.update`. -/
def overwrite (patch : Members) (entry : Entry) : Entry := fun key => (Dict.get patch key).or (entry key)

/-- An object that is patched. -/
def Object.patched (patch : Members) (object : Object) : Object :=
  { object with properties := overwrite patch object.properties }

/-- The object of an id is patched. -/
def patchObjects (id : String) (patch : Members) (objects : List Object) : List Object :=
  objects.map fun object => if object.id = id then object.patched patch else object

/-- `get_all`. -/
def getAll (content : Content) (type : String) : List Entry := (content type).map Object.entry

/-- An update of one object; `none` where the server refuses it. -/
def updateObject (content : Content) (type id : String) (patch : Members) : Option Content :=
  if "id" ∉ Dict.keys patch ∧ id ∈ (content type).map Object.id then
    some (Function.update content type (patchObjects id patch (content type)))
  else none

variable (server : Server)

/-- The object that is created from a value. -/
def newObject (content : Content) (type : String) (value : Members) : Object :=
  ⟨server.freshId type (content type), fun key => Dict.get value key⟩

/-- `create`; `none` where the server refuses it. -/
def createObject (content : Content) (type : String) (value : Members) : Option Content :=
  if "id" ∉ Dict.keys value then
    some (Function.update content type (content type ++ [newObject server content type value]))
  else none

/-! ## The plan -/

inductive Operation
  /-- The labels with their values; `[]` is no `matchOn`. -/
  | upsert (type : String) (matchOn : List String) (value : List (String × Members))
  | create (type : String) (matchOn : List String) (value : List (String × Members))
  /-- An `id` of `""` is none. -/
  | update (type id : String) (value : Members)
  | destroy (type : String) (value : Value)
  | unsupported (kind : String)

/-- `SINGLETON_TYPES`. -/
def singletonTypes : List String :=
  ["Bootstrap", "SystemSettings", "Coordinator", "DataStore", "BlobStore", "SearchStore", "InMemoryStore",
    "MtaOutboundStrategy", "MtaStageAuth", "DnsResolver", "SpamSettings", "Enterprise", "Http", "Jmap",
    "Imap", "OidcProvider", "Security", "Cache", "TaskManager", "Metrics"]

/-- `SINGLETON_ID`. -/
def singletonId : String := "singleton"

/-- A write that the server took. -/
inductive Call
  | create (type : String) (object : Object)
  /-- The update of an upsert. -/
  | patch (type id : String) (patch : Members)
  /-- The update of an update operation. -/
  | write (type id : String) (value : Members)
  | delete (type id : String)

/-- An upsert as it was resolved, with the id of its object. -/
structure Upsert where
  type : String
  matchOn : List String
  value : Members
  id : String

/-- What the applier and the server have come to. -/
structure Run where
  content : Content
  ids : Dict String String
  updated : List String
  unchanged : List String
  destroyed : List String
  /-- The writes the server took, in order. -/
  calls : List Call
  /-- The upserts that found or created their object, in order. -/
  upserts : List Upsert

/-- A new applier. -/
def Run.start (content : Content) : Run := ⟨content, [], [], [], [], [], []⟩

/-- `self.ids`. -/
def Run.labels (run : Run) : Ids := fun label => run.ids.get label

/-! ### Upserts -/

/-- The `matchOn` of an operation, which is the name by default. -/
def matchKeys (matchOn : List String) : List String := if matchOn = [] then ["name"] else matchOn

/-- An object has the properties of a value that it is matched by. -/
def isMatch (matchOn : List String) (value : Members) (entry : Entry) : Bool :=
  matchOn.all fun key => entry.value key = (Dict.get value key).getD .null

/-- `match["id"]`. -/
def idOf (entry : Entry) : String :=
  match entry "id" with
  | some (.text id) => id
  | _ => ""

/-- `visible`: the differences that can be seen. -/
def visibleChanges (matchOn : List String) (value : Members) (found : Entry) : Members :=
  value.filter fun member => member.1 ∉ matchOn ∧ member.1 ≠ "credentials" ∧
    isWriteOnly member.1 member.2 = false ∧ found.value member.1 ≠ member.2

/-- `secrets`: what is always sent. -/
def secretsOf (value : Members) : Members :=
  value.filter fun member => member.1 ≠ "credentials" ∧ isWriteOnly member.1 member.2 = true

/-- `patch`. -/
def patchOf (matchOn : List String) (value : Members) (found : Entry) : Members :=
  visibleChanges matchOn value found ++ secretsOf value

/-- `match.update(patch)` of the first match. -/
def updateFirst (matchOn : List String) (value patch : Members) : List Entry → List Entry
  | [] => []
  | entry :: rest =>
      if isMatch matchOn value entry then overwrite patch entry :: rest
      else entry :: updateFirst matchOn value patch rest

/-- The label gets its id. -/
def Run.labelled (run : Run) (label : String) (upsert : Upsert) : Run :=
  { run with ids := run.ids.set label upsert.id, upserts := run.upserts ++ [upsert] }

/-- The matched object is reported. -/
def Run.reported (run : Run) (visible : Members) (id : String) : Run :=
  if visible = [] then { run with unchanged := run.unchanged ++ [id] }
  else { run with updated := run.updated ++ [id] }

/-- **One value of an upsert**: the objects listed afterwards, and the run; where it raises, the run so
far. -/
def upsertValue (type : String) (matchOn : List String) (existing : List Entry) (run : Run) (label : String)
    (value : Members) : Except Run (List Entry × Run) :=
  match Value.resolveMembers run.labels value with
  | none => .error run
  | some members =>
      let value := dictOf members
      match existing.find? (isMatch matchOn value) with
      | none =>
          let object := newObject server run.content type value
          match createObject server run.content type value with
          | none => .error run
          | some content => .ok (existing ++ [object.entry],
              { run.labelled label ⟨type, matchOn, value, object.id⟩ with
                content := content, calls := run.calls ++ [.create type object] })
      | some found =>
          let visible := visibleChanges matchOn value found
          let patch := patchOf matchOn value found
          let matched := run.labelled label ⟨type, matchOn, value, idOf found⟩
          if patch = [] then .ok (existing, matched.reported visible (idOf found))
          else
            match updateObject run.content type (idOf found) patch with
            | none => .error matched
            | some content => .ok (updateFirst matchOn value patch existing,
                ({ matched with
                  content := content
                  calls := run.calls ++ [Call.patch type (idOf found) patch] }).reported visible (idOf found))

/-- **`_upsert`**, after it has listed the objects. -/
def upsertAll (type : String) (matchOn : List String) :
    List Entry → Run → List (String × Members) → Except Run Run
  | _, run, [] => .ok run
  | existing, run, (label, value) :: rest =>
      match upsertValue server type matchOn existing run label value with
      | .error run => .error run
      | .ok (existing, run) => upsertAll type matchOn existing run rest

/-! ### Operations -/

/-- The update of an object, reported under a name. -/
def writeObject (run : Run) (type id : String) (value : Members) (report : String) : Except Run Run :=
  match updateObject run.content type id value with
  | none => .error run
  | some content => .ok { run with
      content := content
      updated := run.updated ++ [report]
      calls := run.calls ++ [.write type id value] }

/-- **`_update`.** -/
def applyUpdate (run : Run) (type id : String) (value : Members) : Except Run Run :=
  match Value.resolveMembers run.labels value with
  | none => .error run
  | some members =>
      if id ≠ "" then
        match resolveText run.labels id with
        | none => .error run
        | some id => writeObject run type id (dictOf members) id
      else if type ∈ singletonTypes then
        writeObject run type singletonId (dictOf members) (type ++ "/singleton")
      else .error run

/-- The deletes of `_destroy`. -/
def deleteAll (type : String) : Run → List String → Run
  | run, [] => run
  | run, id :: rest =>
      deleteAll type { run with
        content := Function.update run.content type ((run.content type).filter fun object => object.id ≠ id)
        destroyed := run.destroyed ++ [id]
        calls := run.calls ++ [.delete type id] } rest

/-- **`_destroy`.** -/
def applyDestroy (run : Run) (type : String) (value : Value) : Except Run Run :=
  match value.resolve run.labels with
  | none => .error run
  | some filter =>
      .ok (deleteAll type run
        (((run.content type).filter (server.finds type filter)).map Object.id))

/-- **An operation.** -/
def applyOperation (run : Run) : Operation → Except Run Run
  | .upsert type matchOn value =>
      upsertAll server type (matchKeys matchOn) (getAll run.content type) run value
  | .create type matchOn value =>
      upsertAll server type (matchKeys matchOn) (getAll run.content type) run value
  | .update type id value => applyUpdate run type id value
  | .destroy type value => applyDestroy server run type value
  | .unsupported _ => .error run

/-- **`apply`.** -/
def applyPlan : Run → List Operation → Except Run Run
  | run, [] => .ok run
  | run, operation :: rest =>
      match applyOperation server run operation with
      | .error run => .error run
      | .ok run => applyPlan run rest

/-- The run, whether it raised or not. -/
def reachedBy : Except Run Run → Run
  | .error run => run
  | .ok run => run

/-! ## What is done -/

/-! ### Patches -/

section Patch

variable {matchOn : List String} {value patch : Members} {found : Entry} {object : Object} {key id : String}
  {objects : List Object}

theorem mem_patchOf {member : String × Value} : member ∈ patchOf matchOn value found ↔
    member ∈ value ∧ member.1 ≠ "credentials" ∧
      (isWriteOnly member.1 member.2 = true ∨
        member.1 ∉ matchOn ∧ isWriteOnly member.1 member.2 = false ∧ found.value member.1 ≠ member.2) := by
  rw [patchOf, List.mem_append, visibleChanges, secretsOf, List.mem_filter, List.mem_filter,
    decide_eq_true_iff, decide_eq_true_iff]
  constructor
  · rintro (⟨there, unmatched, named, visible, differs⟩ | ⟨there, named, hidden⟩)
    · exact ⟨there, named, Or.inr ⟨unmatched, visible, differs⟩⟩
    · exact ⟨there, named, Or.inl hidden⟩
  · rintro ⟨there, named, hidden | ⟨unmatched, visible, differs⟩⟩
    · exact Or.inr ⟨there, named, hidden⟩
    · exact Or.inl ⟨there, unmatched, named, visible, differs⟩

theorem get_of_subset {given : Value} (distinct : (Dict.keys value).Nodup)
    (among : ∀ member ∈ patch, member ∈ value) (there : (key, given) ∈ patch) :
    Dict.get patch key = some given := by
  cases got : Dict.get patch key with
  | none => exact absurd (List.mem_map_of_mem there) (Dict.get_eq_none.mp got)
  | some other =>
    obtain ⟨entry, found, rfl⟩ := Option.map_eq_some_iff.mp got
    have matched := List.find?_some found
    have named : entry.1 = key := of_decide_eq_true matched
    have mine := (Dict.get_eq_some distinct).mpr (among _ there)
    have own : (key, entry.2) ∈ value := by
      rw [← named]
      exact among _ (List.mem_of_find?_eq_some found)
    rw [← (Dict.get_eq_some distinct).mpr own, mine]

theorem overwrite_of_not_mem {entry : Entry} (absent : key ∉ Dict.keys patch) :
    overwrite patch entry key = entry key := by
  rw [overwrite, Dict.get_eq_none.mpr absent, Option.none_or]

theorem patched_entry_of_not_mem (absent : key ∉ Dict.keys patch) :
    (object.patched patch).entry key = object.entry key := by
  simp only [Object.entry, Object.patched, overwrite_of_not_mem absent]

theorem patched_entry {given : Value} (named : key ≠ "id") (there : Dict.get patch key = some given)
    (visible : isWriteOnly key given = false) : (object.patched patch).entry key = some given.shown := by
  simp only [Object.entry, if_neg named, Object.patched, overwrite, there, Option.some_or, Option.filter_some,
    visible, Bool.not_false, if_true, Option.map_some]

theorem isMatch_congr {entry other : Entry} (same : ∀ key ∈ matchOn, entry.value key = other.value key) :
    isMatch matchOn value entry = isMatch matchOn value other := by
  rw [isMatch, isMatch, Bool.eq_iff_iff, List.all_eq_true, List.all_eq_true]
  refine forall₂_congr fun key there => ?_
  rw [same key there]

theorem Object.entry_id (object : Object) : object.entry "id" = some (.text object.id) := if_pos rfl

theorem patchObjects_of_not_mem (absent : id ∉ objects.map Object.id) :
    patchObjects id patch objects = objects := by
  refine (List.map_congr_left fun object there => if_neg ?_).trans (List.map_id _)
  rintro rfl
  exact absent (List.mem_map_of_mem there)

theorem map_id_patchObjects : (patchObjects id patch objects).map Object.id = objects.map Object.id := by
  rw [patchObjects, List.map_map]
  refine List.map_congr_left fun object _ => ?_
  simp only [Function.comp_apply]
  split <;> rfl

end Patch

/-- The ids of each type's objects are different. -/
def Identified (content : Content) : Prop := ∀ type, ((content type).map Object.id).Nodup

section Spec

variable {server : Server} {type : String} {matchOn : List String} {existing existing' : List Entry}
  {run run' : Run} {label : String} {value : Members}

theorem overwrite_nil (entry : Entry) : overwrite [] entry = entry := rfl

theorem patched_nil (object : Object) : object.patched [] = object := rfl

theorem patchObjects_nil (id : String) (objects : List Object) : patchObjects id [] objects = objects := by
  simp only [patchObjects, patched_nil, ite_self, List.map_id']

theorem updateFirst_nil : updateFirst matchOn value [] existing = existing := by
  induction existing with
  | nil => rfl
  | cons entry rest ih => rw [updateFirst, ih, overwrite_nil, ite_self]

/-- A matched object's run. -/
def Run.matching (run : Run) (type : String) (matchOn : List String) (label : String) (value : Members)
    (found : Entry) : Run where
  content := Function.update run.content type
    (patchObjects (idOf found) (patchOf matchOn value found) (run.content type))
  ids := run.ids.set label (idOf found)
  updated := if visibleChanges matchOn value found = [] then run.updated else run.updated ++ [idOf found]
  unchanged :=
    if visibleChanges matchOn value found = [] then run.unchanged ++ [idOf found] else run.unchanged
  destroyed := run.destroyed
  calls := run.calls ++ if patchOf matchOn value found = [] then []
    else [.patch type (idOf found) (patchOf matchOn value found)]
  upserts := run.upserts ++ [⟨type, matchOn, value, idOf found⟩]

theorem matching_of_nothing {found : Entry} (nothing : patchOf matchOn value found = []) :
    run.matching type matchOn label value found =
      (run.labelled label ⟨type, matchOn, value, idOf found⟩).reported (visibleChanges matchOn value found)
        (idOf found) := by
  have unseen : visibleChanges matchOn value found = [] := (List.append_eq_nil_iff.mp nothing).1
  simp only [Run.matching, nothing, patchObjects_nil, Function.update_eq_self, unseen, if_true,
    List.append_nil, Run.reported, Run.labelled]

theorem matching_of_patch {found : Entry} (changed : patchOf matchOn value found ≠ []) :
    run.matching type matchOn label value found =
      ({ run.labelled label ⟨type, matchOn, value, idOf found⟩ with
        content := Function.update run.content type
          (patchObjects (idOf found) (patchOf matchOn value found) (run.content type))
        calls := run.calls ++ [.patch type (idOf found) (patchOf matchOn value found)] } : Run).reported
          (visibleChanges matchOn value found) (idOf found) := by
  by_cases unseen : visibleChanges matchOn value found = []
  · simp only [Run.matching, if_neg changed, if_pos unseen, Run.reported, Run.labelled]
  · simp only [Run.matching, if_neg changed, if_neg unseen, Run.reported, Run.labelled]

/-- A created object's run. -/
def Run.creating (run : Run) (server : Server) (type : String) (matchOn : List String) (label : String)
    (value : Members) : Run where
  content := Function.update run.content type
    (run.content type ++ [newObject server run.content type value])
  ids := run.ids.set label (newObject server run.content type value).id
  updated := run.updated
  unchanged := run.unchanged
  destroyed := run.destroyed
  calls := run.calls ++ [.create type (newObject server run.content type value)]
  upserts := run.upserts ++ [⟨type, matchOn, value, (newObject server run.content type value).id⟩]

/-- **What one value of an upsert does**, where it does not raise. -/
inductive Upserted (server : Server) (type : String) (matchOn : List String) (existing : List Entry)
    (run : Run) (label : String) (value : Members) : List Entry → Run → Prop
  | creating : existing.find? (isMatch matchOn value) = none → "id" ∉ Dict.keys value →
      Upserted server type matchOn existing run label value
        (existing ++ [(newObject server run.content type value).entry])
        (run.creating server type matchOn label value)
  | matching (found : Entry) : existing.find? (isMatch matchOn value) = some found →
      (patchOf matchOn value found ≠ [] → "id" ∉ Dict.keys (patchOf matchOn value found) ∧
        idOf found ∈ (run.content type).map Object.id) →
      Upserted server type matchOn existing run label value
        (updateFirst matchOn value (patchOf matchOn value found) existing)
        (run.matching type matchOn label value found)

theorem upsertValue_cases
    (done : upsertValue server type matchOn existing run label value = .ok (existing', run')) :
    ∃ members, Value.resolveMembers run.labels value = some members ∧
      Upserted server type matchOn existing run label (dictOf members) existing' run' := by
  delta upsertValue at done
  split at done
  · cases done
  · rename_i members resolved
    refine ⟨members, resolved, ?_⟩
    dsimp only at done
    split at done
    · rename_i absent
      split at done
      · cases done
      · rename_i content created
        obtain ⟨rfl, rfl⟩ := Prod.mk.inj (Except.ok.inj done)
        rw [createObject] at created
        split at created
        · rename_i allowed
          obtain rfl := Option.some.inj created
          exact .creating absent allowed
        · cases created
    · rename_i found first
      by_cases nothing : patchOf matchOn (dictOf members) found = []
      · rw [if_pos nothing] at done
        obtain ⟨rfl, rfl⟩ := Prod.mk.inj (Except.ok.inj done)
        rw [← matching_of_nothing nothing]
        have steps : Upserted server type matchOn existing run label (dictOf members)
            (updateFirst matchOn (dictOf members) (patchOf matchOn (dictOf members) found) existing)
            (run.matching type matchOn label (dictOf members) found) :=
          .matching found first fun changed => absurd nothing changed
        rw [nothing, updateFirst_nil] at steps
        exact steps
      · rw [if_neg nothing] at done
        split at done
        · cases done
        · rename_i content updated
          obtain ⟨rfl, rfl⟩ := Prod.mk.inj (Except.ok.inj done)
          rw [updateObject] at updated
          split at updated
          · rename_i allowed
            obtain rfl := Option.some.inj updated
            rw [← matching_of_patch nothing]
            exact .matching found first fun _ => allowed
          · cases updated

theorem upsertValue_of_matching {members : List (String × Value)} {found : Entry}
    (resolved : Value.resolveMembers run.labels value = some members)
    (first : existing.find? (isMatch matchOn (dictOf members)) = some found)
    (allowed : patchOf matchOn (dictOf members) found ≠ [] →
      "id" ∉ Dict.keys (patchOf matchOn (dictOf members) found) ∧
        idOf found ∈ (run.content type).map Object.id) :
    upsertValue server type matchOn existing run label value =
      .ok (updateFirst matchOn (dictOf members) (patchOf matchOn (dictOf members) found) existing,
        run.matching type matchOn label (dictOf members) found) := by
  by_cases nothing : patchOf matchOn (dictOf members) found = []
  · delta upsertValue
    simp only [resolved, first, nothing, if_true, updateFirst_nil, matching_of_nothing nothing]
  · simp only [upsertValue, resolved, first, if_neg nothing, updateObject, if_pos (allowed nothing),
      matching_of_patch nothing]

theorem upsertValue_of_unresolved (unresolved : Value.resolveMembers run.labels value = none) :
    upsertValue server type matchOn existing run label value = .error run := by
  delta upsertValue
  rw [unresolved]

theorem upsertValue_of_absent {members : List (String × Value)}
    (resolved : Value.resolveMembers run.labels value = some members)
    (absent : existing.find? (isMatch matchOn (dictOf members)) = none) :
    upsertValue server type matchOn existing run label value =
      if "id" ∈ Dict.keys (dictOf members) then .error run
      else .ok (existing ++ [(newObject server run.content type (dictOf members)).entry],
        run.creating server type matchOn label (dictOf members)) := by
  delta upsertValue
  rw [resolved]
  dsimp only
  rw [absent, createObject]
  by_cases named : "id" ∈ Dict.keys (dictOf members)
  · rw [if_pos named, if_neg (not_not.mpr named)]
  · rw [if_neg named, if_pos named]
    rfl

theorem upsertValue_of_refused {members : List (String × Value)} {found : Entry}
    (resolved : Value.resolveMembers run.labels value = some members)
    (first : existing.find? (isMatch matchOn (dictOf members)) = some found)
    (named : "id" ∈ Dict.keys (patchOf matchOn (dictOf members) found)) :
    upsertValue server type matchOn existing run label value =
      .error (run.labelled label ⟨type, matchOn, dictOf members, idOf found⟩) := by
  have changed : patchOf matchOn (dictOf members) found ≠ [] := by
    intro nothing
    rw [nothing] at named
    cases named
  delta upsertValue
  rw [resolved]
  dsimp only
  rw [first]
  dsimp only
  rw [if_neg changed, updateObject, if_neg fun allowed => allowed.1 named]

/-! ### Steps -/

/-- The run after an update operation has written. -/
def Run.writing (run : Run) (content : Content) (type id : String) (value : Members) (report : String) :
    Run :=
  { run with
    content := content
    updated := run.updated ++ [report]
    calls := run.calls ++ [.write type id value] }

theorem writeObject_cases {id report : String} (done : writeObject run type id value report = .ok run') :
    "id" ∉ Dict.keys value ∧ id ∈ (run.content type).map Object.id ∧
      run' = run.writing (Function.update run.content type (patchObjects id value (run.content type))) type id
        value report := by
  rw [writeObject, updateObject] at done
  split at done
  · cases done
  · rename_i content written
    split at written
    · rename_i allowed
      obtain rfl := Option.some.inj written
      exact ⟨allowed.1, allowed.2, (Except.ok.inj done).symm⟩
    · cases written

theorem writeObject_of_mem {id report : String} (unnamed : "id" ∉ Dict.keys value)
    (there : id ∈ (run.content type).map Object.id) :
    writeObject run type id value report =
      .ok (run.writing (Function.update run.content type (patchObjects id value (run.content type))) type id
        value report) := by
  rw [writeObject, updateObject, if_pos ⟨unnamed, there⟩]
  rfl

/-- The run after a delete. -/
def Run.deleting (run : Run) (type id : String) : Run :=
  { run with
    content := Function.update run.content type ((run.content type).filter fun object => object.id ≠ id)
    destroyed := run.destroyed ++ [id]
    calls := run.calls ++ [.delete type id] }

/-- **One step of a plan.** -/
inductive Step (server : Server) : Run → Run → Prop
  | upserted {type : String} {matchOn : List String} {existing existing' : List Entry} {run run' : Run}
      {label : String} {value : Members} :
      Upserted server type matchOn existing run label value existing' run' → Step server run run'
  /-- The server refuses the patch of a matched object. -/
  | refused (run : Run) (label : String) (upsert : Upsert) : Step server run (run.labelled label upsert)
  | wrote {run : Run} {content : Content} {type id : String} {value : Members} (report : String) :
      updateObject run.content type id value = some content →
      Step server run (run.writing content type id value report)
  | deleted (run : Run) (type id : String) : Step server run (run.deleting type id)

theorem Upserted.logged (step : Upserted server type matchOn existing run label value existing' run') :
    ∃ id, run'.upserts = run.upserts ++ [⟨type, matchOn, value, id⟩] ∧ run'.ids = run.ids.set label id ∧
      "id" ∉ Dict.keys (secretsOf value) ∧
      ∀ other, other ≠ type → run'.content other = run.content other := by
  have within : ∀ {patch : Members}, (∀ member ∈ secretsOf value, member ∈ patch) → "id" ∉ Dict.keys patch →
      "id" ∉ Dict.keys (secretsOf value) := by
    intro patch among unnamed there
    obtain ⟨member, secret, same⟩ := List.mem_map.mp there
    exact unnamed (same ▸ List.mem_map_of_mem (among member secret))
  cases step with
  | creating absent unnamed =>
    exact ⟨_, rfl, rfl, within (fun member secret => (List.mem_filter.mp secret).1) unnamed,
      fun other differs => Function.update_of_ne differs _ _⟩
  | matching found first allowed =>
    refine ⟨_, rfl, rfl, ?_, fun other differs => Function.update_of_ne differs _ _⟩
    by_cases nothing : patchOf matchOn value found = []
    · rw [(List.append_eq_nil_iff.mp nothing).2]
      exact List.not_mem_nil
    · exact within (fun member secret => List.mem_append_right _ secret) (allowed nothing).1

theorem upsertAll_cons {values : List (String × Members)} {value : Members}
    (done : upsertAll server type matchOn existing run ((label, value) :: values) = .ok run') :
    ∃ existing₁ run₁, upsertValue server type matchOn existing run label value = .ok (existing₁, run₁) ∧
      upsertAll server type matchOn existing₁ run₁ values = .ok run' := by
  rw [upsertAll] at done
  cases first : upsertValue server type matchOn existing run label value with
  | error failed => rw [first] at done; cases done
  | ok result =>
    rw [first] at done
    exact ⟨result.1, result.2, rfl, done⟩

theorem applyUpdate_cases {id : String} {first first' : Run} {value : Members}
    (done : applyUpdate first type id value = .ok first') :
    ∃ target members report, writeObject first type target members report = .ok first' ∧
      ∀ second : Run, second.labels = first.labels →
        applyUpdate second type id value = writeObject second type target members report := by
  rw [applyUpdate] at done
  split at done
  · cases done
  · rename_i members resolved
    split at done
    · rename_i given
      split at done
      · cases done
      · rename_i target named
        refine ⟨target, dictOf members, target, done, fun second same => ?_⟩
        simp only [applyUpdate, same, resolved, if_pos given, named]
    · rename_i given
      split at done
      · rename_i singleton
        refine ⟨singletonId, dictOf members, type ++ "/singleton", done, fun second same => ?_⟩
        simp only [applyUpdate, same, resolved, if_neg given, if_pos singleton]
      · cases done

theorem applyPlan_cons {operation : Operation} {plan : List Operation}
    (done : applyPlan server run (operation :: plan) = .ok run') :
    ∃ next, applyOperation server run operation = .ok next ∧ applyPlan server next plan = .ok run' := by
  rw [applyPlan] at done
  cases first : applyOperation server run operation with
  | error failed => rw [first] at done; cases done
  | ok next =>
    rw [first] at done
    exact ⟨next, rfl, done⟩

variable (server type matchOn)

theorem steps_upsertValue (existing : List Entry) (run : Run) (label : String) (value : Members) :
    Relation.ReflTransGen (Step server) run
      (match upsertValue server type matchOn existing run label value with
        | .error run => run
        | .ok (_, run) => run) := by
  cases done : upsertValue server type matchOn existing run label value with
  | ok result =>
    obtain ⟨members, -, step⟩ := upsertValue_cases done
    exact .single (.upserted step)
  | error failed =>
    rw [upsertValue] at done
    split at done
    · cases done
      exact .refl
    · dsimp only at done
      split at done
      · split at done
        · cases done
          exact .refl
        · cases done
      · split at done
        · cases done
        · split at done
          · cases done
            exact .single (.refused run label _)
          · cases done

theorem steps_upsertAll (values : List (String × Members)) (existing : List Entry) (run : Run) :
    Relation.ReflTransGen (Step server) run
      (reachedBy (upsertAll server type matchOn existing run values)) := by
  induction values generalizing existing run with
  | nil => exact .refl
  | cons entry rest ih =>
    obtain ⟨label, value⟩ := entry
    have first := steps_upsertValue server type matchOn existing run label value
    rw [upsertAll]
    cases done : upsertValue server type matchOn existing run label value with
    | error failed =>
      rw [done] at first
      exact first
    | ok result =>
      rw [done] at first
      exact first.trans (ih result.1 result.2)

theorem steps_writeObject (run : Run) (id : String) (value : Members) (report : String) :
    Relation.ReflTransGen (Step server) run (reachedBy (writeObject run type id value report)) := by
  rw [writeObject]
  cases done : updateObject run.content type id value with
  | none => exact .refl
  | some content => exact .single (.wrote report done)

theorem steps_deleteAll (ids : List String) (run : Run) :
    Relation.ReflTransGen (Step server) run (deleteAll type run ids) := by
  induction ids generalizing run with
  | nil => exact .refl
  | cons id rest ih => exact .head (.deleted run type id) (ih _)

theorem steps_applyOperation (run : Run) (operation : Operation) :
    Relation.ReflTransGen (Step server) run (reachedBy (applyOperation server run operation)) := by
  cases operation with
  | upsert type matchOn value => exact steps_upsertAll server _ _ value _ run
  | create type matchOn value => exact steps_upsertAll server _ _ value _ run
  | update type id value =>
    rw [applyOperation, applyUpdate]
    split
    · exact .refl
    · split
      · split
        · exact .refl
        · exact steps_writeObject server type run _ _ _
      · split
        · exact steps_writeObject server type run _ _ _
        · exact .refl
  | destroy type value =>
    rw [applyOperation, applyDestroy]
    split
    · exact .refl
    · exact steps_deleteAll server type _ run
  | unsupported kind => exact .refl

theorem steps_applyPlan (plan : List Operation) (run : Run) :
    Relation.ReflTransGen (Step server) run (reachedBy (applyPlan server run plan)) := by
  induction plan generalizing run with
  | nil => exact .refl
  | cons operation rest ih =>
    have first := steps_applyOperation server run operation
    rw [applyPlan]
    cases done : applyOperation server run operation with
    | error failed =>
      rw [done] at first
      exact first
    | ok next =>
      rw [done] at first
      exact first.trans (ih next)

end Spec

/-! ### What only grows -/

/-- The log and the writes only grow. -/
structure Grows (run run' : Run) : Prop where
  upserts : run.upserts <+: run'.upserts
  calls : run.calls <+: run'.calls

section Grow

variable {server : Server} {type : String} {matchOn : List String} {existing : List Entry}
  {run run' : Run}

theorem Grows.refl (run : Run) : Grows run run := ⟨List.prefix_rfl, List.prefix_rfl⟩

theorem Grows.trans {last : Run} (first : Grows run run') (second : Grows run' last) : Grows run last :=
  ⟨first.upserts.trans second.upserts, first.calls.trans second.calls⟩

theorem Step.grows (step : Step server run run') : Grows run run' := by
  cases step with
  | upserted step =>
    cases step with
    | creating => exact ⟨List.prefix_append _ _, List.prefix_append _ _⟩
    | matching => exact ⟨List.prefix_append _ _, List.prefix_append _ _⟩
  | refused label upsert => exact ⟨List.prefix_append _ _, List.prefix_rfl⟩
  | wrote report written => exact ⟨List.prefix_rfl, List.prefix_append _ _⟩
  | deleted type id => exact ⟨List.prefix_rfl, List.prefix_append _ _⟩

theorem grows_steps (steps : Relation.ReflTransGen (Step server) run run') : Grows run run' := by
  induction steps with
  | refl => exact .refl run
  | tail _ step ih => exact ih.trans step.grows

theorem grows_upsertAll {values : List (String × Members)}
    (done : upsertAll server type matchOn existing run values = .ok run') : Grows run run' := by
  have steps := steps_upsertAll server type matchOn values existing run
  rw [done] at steps
  exact grows_steps steps

theorem grows_applyPlan {plan : List Operation} (done : applyPlan server run plan = .ok run') :
    Grows run run' := by
  have steps := steps_applyPlan server plan run
  rw [done] at steps
  exact grows_steps steps

end Grow

end SuiteCloud.Mail.Stalwart
