/-
**Drift, and what a push would change.**

`drift_report`, `_drifted` and `same_value` of `suite_cloud/mail/cluster/plan.py` compare a plan with what a
cluster holds, before any label has an id; the applier compares once more, with the ids there.

* `driftReport` — the report.
* `Quiet` — calls that create nothing and leave all that is shown as it is.
* `compareExactly` — the plan against the content with nothing left out: each `@type`, each label as its id,
  the members of each dict.
* `follows_applyPlan` — **the applier, step for step beside that comparison.**
* `clean_push_iff` — **without drift a push changes nothing exactly where that comparison finds nothing**,
  which for a plan of flat values is always.
* `unseen_reference` — a label that stands for another id than the one held.
-/

import SuiteCloud.Mail.Stalwart.Plan

namespace SuiteCloud.Mail.Stalwart

open SuiteCloud.Library

/-! ### The report -/

mutual

/-- **`same_value`.** -/
def sameValue : Value → Value → Bool
  | live, .text wanted =>
      match labelOf wanted with
      | some _ =>
          match live with
          | .text id => id ≠ ""
          | _ => false
      | none => live = .text wanted
  | live, .dict wanted =>
      match live with
      | .dict held => sameMembers held wanted
      | _ => false
  | live, .list wanted =>
      match live with
      | .list held => sameItems held wanted
      | _ => false
  | live, wanted => live = wanted

def sameItems : List Value → List Value → Bool
  | [], [] => true
  | live :: held, item :: wanted => sameValue live item && sameItems held wanted
  | _, _ => false

/-- The members of a dict that are wanted; what else it holds is not looked at. -/
def sameMembers (held : Members) : List (String × Value) → Bool
  | [] => true
  | (key, value) :: wanted =>
      (isWriteOnly key value || sameValue ((Dict.get held key).getD .null) value) && sameMembers held wanted

end

inductive Difference
  | missing (object ref : String)
  /-- `""` is no `ref`. -/
  | property (object property ref : String)
  deriving DecidableEq

/-- **`_drifted`.** -/
def drifted (objectType : String) (live : Entry) (wanted : Members) (ref : String) : List Difference :=
  (wanted.filter fun member => ¬ (member.1 = "@type" ∨ isWriteOnly member.1 member.2 = true) ∧
    sameValue (live.value member.1) member.2 = false).map fun member => .property objectType member.1 ref

/-- `SingletonService.read`. -/
def readSingleton (content : Content) (type : String) : Entry :=
  match (content type).find? fun object => object.id = singletonId with
  | some object => object.entry
  | none => fun _ => none

def driftOf (content : Content) : Operation → List Difference
  | .upsert type matchOn value => value.flatMap fun (ref, wanted) =>
      match (getAll content type).find? (isMatch (matchKeys matchOn) wanted) with
      | none => [.missing type ref]
      | some live => drifted type live wanted ref
  | .update type id value => if id = "" then drifted type (readSingleton content type) value "" else []
  | _ => []

/-- **`drift_report`.** -/
def driftReport (content : Content) (plan : List Operation) : List Difference :=
  plan.flatMap (driftOf content)

/-! ### What a push changes -/

/-- What is seen of an object: its id, and its properties as `dict.get` gives them. -/
def Object.view (object : Object) : String × (String → Value) := (object.id, object.entry.value)

/-- What is shown is the same. -/
def SameShown (content other : Content) : Prop :=
  ∀ type, (content type).map Object.view = (other type).map Object.view

/-- What a call does to the content. -/
def Call.applied (content : Content) : Call → Content
  | .create type object => Function.update content type (content type ++ [object])
  | .patch type id sent => Function.update content type (patchObjects id sent (content type))
  | .write type id value => Function.update content type (patchObjects id value (content type))
  | .delete type id => Function.update content type ((content type).filter fun object => object.id ≠ id)

def Call.creates : Call → Bool
  | .create _ _ => true
  | _ => false

/-- **Calls that change nothing one can see**: none creates an object, and each leaves what is shown. -/
def Quiet : Content → List Call → Prop
  | _, [] => True
  | content, call :: calls =>
      call.creates = false ∧ SameShown (call.applied content) content ∧ Quiet (call.applied content) calls

/-! ### The plan held against the content -/

/-- What is seen of a property that is given. -/
def shownAs (key : String) (value : Value) : Value := if isWriteOnly key value then .null else value.shown

/-- The object shows what is given. -/
def Object.Has (object : Object) (value : Members) : Prop :=
  ∀ member ∈ value, object.entry.value member.1 = shownAs member.1 member.2

instance (object : Object) (value : Members) : Decidable (object.Has value) :=
  inferInstanceAs (Decidable (∀ member ∈ value, object.entry.value member.1 = shownAs member.1 member.2))

/-- How a plan compares with the content. -/
inductive Compared
  | differs
  /-- The plan cannot be applied further. -/
  | raises
  | same (ids : Dict String String)
  deriving DecidableEq

/-- A value that an object has; an id is not for the plan to change. -/
def compareWith (ids : Dict String String) (label : String) (value : Members) (object : Object) : Compared :=
  if (Dict.get value "id").getD (.text object.id) ≠ .text object.id then .raises
  else if object.Has value then .same (ids.set label object.id)
  else .differs

def compareValue (content : Content) (type : String) (matchOn : List String) (ids : Dict String String)
    (label : String) (value : Members) : Compared :=
  match Value.resolveMembers (fun label => ids.get label) value with
  | none => .raises
  | some members =>
      match (content type).find? fun object => isMatch matchOn (dictOf members) object.entry with
      | none => if "id" ∈ Dict.keys (dictOf members) then .raises else .differs
      | some object => compareWith ids label (dictOf members) object

def compareValues (content : Content) (type : String) (matchOn : List String) :
    Dict String String → List (String × Members) → Compared
  | ids, [] => .same ids
  | ids, (label, value) :: rest =>
      match compareValue content type matchOn ids label value with
      | .same ids => compareValues content type matchOn ids rest
      | other => other

def compareSingleton (content : Content) (ids : Dict String String) (type : String) (value : Members) :
    Compared :=
  match Value.resolveMembers (fun label => ids.get label) value with
  | none => .raises
  | some members =>
      if type ∉ singletonTypes ∨ "id" ∈ Dict.keys (dictOf members) then .raises
      else
        match (content type).find? fun object => object.id = singletonId with
        | none => .raises
        | some object => if object.Has (dictOf members) then .same ids else .differs

def compareOperation (content : Content) (ids : Dict String String) : Operation → Compared
  | .upsert type matchOn value => compareValues content type (matchKeys matchOn) ids value
  | .update type _ value => compareSingleton content ids type value
  | _ => .raises

/-- **The plan held against the content** with nothing left out. -/
def compareExactly (content : Content) : Dict String String → List Operation → Compared
  | ids, [] => .same ids
  | ids, operation :: rest =>
      match compareOperation content ids operation with
      | .same ids => compareExactly content ids rest
      | other => other

/-! ### What a patch shows -/

section Patch

variable {matchOn : List String} {value patch : Members} {entry : Entry} {object other : Object}
  {content : Content} {type : String}

theorem SameShown.refl (content : Content) : SameShown content content := fun _ => rfl

theorem SameShown.trans {first second third : Content} (left : SameShown first second)
    (right : SameShown second third) : SameShown first third := fun type => (left type).trans (right type)

theorem value_patched (unnamed : "id" ∉ Dict.keys patch) (key : String) :
    (object.patched patch).entry.value key =
      ((Dict.get patch key).map (shownAs key)).getD (object.entry.value key) := by
  cases got : Dict.get patch key with
  | none => rw [Entry.value, patched_entry_of_not_mem (Dict.get_eq_none.mp got)]; rfl
  | some given =>
    have named : key ≠ "id" := by
      rintro rfl
      rw [Dict.get_eq_none.mpr unnamed] at got
      cases got
    simp only [Entry.value, Object.entry, if_neg named, Object.patched, overwrite, got, Option.some_or,
      Option.filter_some, Option.map_some, Option.getD_some, shownAs]
    by_cases hidden : isWriteOnly key given = true
    · simp only [hidden, Bool.not_true, Bool.false_eq_true, if_false, Option.map_none, Option.getD_none,
        if_true]
    · simp only [Bool.eq_false_iff.mpr hidden, Bool.not_false, if_true, Option.map_some, Option.getD_some,
        Bool.false_eq_true, if_false]

theorem view_patched_iff (unnamed : "id" ∉ Dict.keys patch) :
    (object.patched patch).view = object.view ↔
      ∀ key given, Dict.get patch key = some given → object.entry.value key = shownAs key given := by
  rw [Object.view, Object.view, Prod.mk.injEq, funext_iff]
  constructor
  · rintro ⟨-, same⟩ key given got
    rw [← same key, value_patched unnamed, got]
    rfl
  · intro has
    refine ⟨rfl, fun key => ?_⟩
    rw [value_patched unnamed]
    cases got : Dict.get patch key with
    | none => rfl
    | some given => exact (has key given got).symm

theorem sameShown_patch_iff (identified : Identified content) (there : object ∈ content type)
    (unnamed : "id" ∉ Dict.keys patch) :
    SameShown (Function.update content type (patchObjects object.id patch (content type))) content ↔
      ∀ key given, Dict.get patch key = some given → object.entry.value key = shownAs key given := by
  rw [← view_patched_iff unnamed]
  constructor
  · intro same
    have mine := same type
    rw [Function.update_self, patchObjects, List.map_map] at mine
    have looks := List.map_inj_left.mp mine object there
    rwa [Function.comp_apply, if_pos rfl] at looks
  · intro looks type'
    by_cases same : type' = type
    · subst same
      rw [Function.update_self, patchObjects, List.map_map]
      refine List.map_congr_left fun other among => ?_
      rw [Function.comp_apply]
      by_cases mine : other.id = object.id
      · obtain rfl := List.inj_on_of_nodup_map (identified type') among there mine
        rw [if_pos mine]
        exact looks
      · rw [if_neg mine]
    · rw [Function.update_of_ne same]

theorem shown_value (object : Object) (key : String) :
    (object.entry.value key).shown = object.entry.value key := by
  rw [Entry.value, Object.entry]
  split
  · rfl
  · cases (object.properties key).filter fun value => !isWriteOnly key value with
    | none => rfl
    | some value => exact Value.shown_shown value

theorem eq_null_of_writeOnly {key : String} (hidden : isWriteOnly key (object.entry.value key) = true) :
    object.entry.value key = .null := by
  rw [Entry.value, Object.entry] at hidden ⊢
  by_cases named : key = "id"
  · subst named
    simp [isWriteOnly, writeOnlyKeys, isSecretValue] at hidden
  · rw [if_neg named] at hidden ⊢
    cases given : (object.properties key).filter fun value => !isWriteOnly key value with
    | none => rfl
    | some value =>
      have visible : isWriteOnly key value = false := by
        have kept := (Option.filter_eq_some_iff.mp given).2
        rwa [Bool.not_eq_true'] at kept
      rw [given, Option.map_some, Option.getD_some, Value.isWriteOnly_shown visible] at hidden
      cases hidden

theorem value_of_writeOnlyKey {key : String} (hidden : key ∈ writeOnlyKeys) (object : Object) :
    object.entry.value key = .null :=
  eq_null_of_writeOnly (by rw [isWriteOnly, decide_eq_true hidden, Bool.true_or])

/-! ### The dicts listed -/

/-- A dict of the client beside an object: they agree on the id and on what is matched, and what can be seen
of the dict is seen of the object. -/
structure Mirrors (matchOn : List String) (entry : Entry) (object : Object) : Prop where
  id : entry "id" = some (.text object.id)
  keys : ∀ key ∈ matchOn, entry.value key = object.entry.value key
  seen : ∀ key, isWriteOnly key (entry.value key) = false → object.entry.value key = (entry.value key).shown

theorem mirrors_getAll {shown : Content} (same : SameShown content shown) (matchOn : List String)
    (type : String) : List.Forall₂ (Mirrors matchOn) (getAll content type) (shown type) := by
  have pairs : List.Forall₂ Eq ((content type).map Object.view) ((shown type).map Object.view) := by
    rw [List.forall₂_eq_eq_eq]
    exact same type
  rw [getAll, List.forall₂_map_left_iff]
  refine (List.forall₂_map_right_iff.mp (List.forall₂_map_left_iff.mp pairs)).imp fun object other looks => ?_
  obtain ⟨ids, values⟩ := Prod.mk.inj looks
  refine ⟨?_, fun key _ => congrFun values key, fun key _ => ?_⟩
  · rw [object.entry_id, ids]
  · rw [shown_value]
    exact (congrFun values key).symm

theorem Mirrors.isMatch (value : Members) (mirrors : Mirrors matchOn entry object) :
    isMatch matchOn value entry = isMatch matchOn value object.entry := isMatch_congr mirrors.keys

theorem Mirrors.idOf (mirrors : Mirrors matchOn entry object) : idOf entry = object.id := by
  rw [Stalwart.idOf, mirrors.id]

theorem isMatch_iff : isMatch matchOn value entry = true ↔
    ∀ key ∈ matchOn, entry.value key = (Dict.get value key).getD .null := by
  rw [isMatch, List.all_eq_true]
  exact forall₂_congr fun _ _ => decide_eq_true_iff

theorem Mirrors.has_iff (mirrors : Mirrors matchOn entry object) (once : (Dict.keys value).Nodup)
    (matched : Stalwart.isMatch matchOn value entry = true) :
    (∀ key given, Dict.get (patchOf matchOn value entry) key = some given →
        object.entry.value key = shownAs key given) ↔ object.Has value := by
  have got : ∀ {member : String × Value}, member ∈ patchOf matchOn value entry →
      Dict.get (patchOf matchOn value entry) member.1 = some member.2 := fun there =>
    get_of_subset once (fun _ among => (mem_patchOf.mp among).1) there
  constructor
  · intro has member given
    by_cases there : member ∈ patchOf matchOn value entry
    · exact has member.1 member.2 (got there)
    · rw [mem_patchOf] at there
      by_cases named : member.1 ∈ writeOnlyKeys
      · rw [value_of_writeOnlyKey named, shownAs, isWriteOnly, decide_eq_true named, Bool.true_or, if_pos rfl]
      · have other : member.1 ≠ "credentials" := fun same => named (by rw [same]; decide)
        have visible : isWriteOnly member.1 member.2 = false :=
          Bool.eq_false_iff.mpr fun hidden => there ⟨given, other, Or.inl hidden⟩
        have same : entry.value member.1 = member.2 := by
          by_cases among : member.1 ∈ matchOn
          · rw [isMatch_iff.mp matched member.1 among, (Dict.get_eq_some once).mpr given, Option.getD_some]
          · by_contra differs
            exact there ⟨given, other, Or.inr ⟨among, visible, differs⟩⟩
        rw [shownAs, if_neg (Bool.eq_false_iff.mp visible), mirrors.seen member.1 (same ▸ visible), same]
  · intro has key given found
    obtain ⟨member, among, rfl⟩ := Option.map_eq_some_iff.mp found
    have matched := List.find?_some among
    have named : member.1 = key := of_decide_eq_true matched
    rw [← named]
    exact has member (mem_patchOf.mp (List.mem_of_find?_eq_some among)).1

theorem Mirrors.refused_iff (mirrors : Mirrors matchOn entry object) (once : (Dict.keys value).Nodup)
    (matched : Stalwart.isMatch matchOn value entry = true) :
    "id" ∈ Dict.keys (patchOf matchOn value entry) ↔
      (Dict.get value "id").getD (.text object.id) ≠ .text object.id := by
  have own : entry.value "id" = .text object.id := by rw [Entry.value, mirrors.id, Option.getD_some]
  constructor
  · intro there
    obtain ⟨⟨key, given⟩, patched, rfl⟩ := List.mem_map.mp there
    obtain ⟨given', -, differs⟩ := mem_patchOf.mp patched
    rw [(Dict.get_eq_some once).mpr given', Option.getD_some]
    rcases differs with hidden | ⟨-, -, differs⟩
    · rintro rfl
      simp [isWriteOnly, writeOnlyKeys, isSecretValue] at hidden
    · exact fun same => differs (own.trans same.symm)
  · intro differs
    cases got : Dict.get value "id" with
    | none =>
      rw [got] at differs
      exact absurd rfl differs
    | some given =>
      rw [got, Option.getD_some] at differs
      have there := (Dict.get_eq_some once).mp got
      have named : "id" ≠ "credentials" := by decide
      refine List.mem_map.mpr ⟨("id", given), mem_patchOf.mpr ⟨there, named, ?_⟩, rfl⟩
      by_cases hidden : isWriteOnly "id" given = true
      · exact Or.inl hidden
      · refine Or.inr ⟨fun among => differs ?_, Bool.eq_false_iff.mpr hidden, fun same => differs ?_⟩
        · have same := isMatch_iff.mp matched "id" among
          rw [got, own, Option.getD_some] at same
          exact same.symm
        · exact same.symm.trans own

theorem value_overwrite (patch : Members) (entry : Entry) (key : String) :
    (overwrite patch entry).value key = (Dict.get patch key).getD (entry.value key) := by
  rw [Entry.value, overwrite]
  cases Dict.get patch key with
  | none => rfl
  | some given => rfl

/-- **A dict goes on mirroring its object** when both are patched and the object shows it already. -/
theorem Mirrors.overwritten (mirrors : Mirrors matchOn entry object) (once : (Dict.keys value).Nodup)
    (matched : Stalwart.isMatch matchOn value entry = true) (has : object.Has value)
    (unnamed : "id" ∉ Dict.keys (patchOf matchOn value entry)) :
    Mirrors matchOn (overwrite (patchOf matchOn value entry) entry) object := by
  have shows := (mirrors.has_iff once matched).mpr has
  refine ⟨?_, fun key among => ?_, fun key visible => ?_⟩
  · rw [overwrite_of_not_mem unnamed]
    exact mirrors.id
  · rw [value_overwrite]
    cases got : Dict.get (patchOf matchOn value entry) key with
    | none => exact mirrors.keys key among
    | some given =>
      -- What is sent of a property that is matched is write-only, and equal to what is shown: nothing.
      obtain ⟨member, patched, rfl⟩ := Option.map_eq_some_iff.mp got
      have found := List.find?_some patched
      have named : member.1 = key := of_decide_eq_true found
      obtain ⟨given, -, differs⟩ := mem_patchOf.mp (List.mem_of_find?_eq_some patched)
      have hidden := differs.resolve_right fun other => other.1 (named ▸ among)
      have same := isMatch_iff.mp matched key among
      rw [mirrors.keys key among, ← named, (Dict.get_eq_some once).mpr given, Option.getD_some] at same
      rw [Option.getD_some, ← named, same]
  · rw [value_overwrite] at visible ⊢
    cases got : Dict.get (patchOf matchOn value entry) key with
    | none =>
      rw [got] at visible
      exact mirrors.seen key visible
    | some given =>
      rw [got, Option.getD_some] at visible
      rw [shows key given got, shownAs, if_neg (Bool.eq_false_iff.mp visible), Option.getD_some]

theorem mirrors_updateFirst {existing : List Entry} {objects : List Object}
    (mirrors : List.Forall₂ (Mirrors matchOn) existing objects)
    (found : existing.find? (isMatch matchOn value) = some entry)
    (there : (objects.find? fun object => isMatch matchOn value object.entry) = some object)
    (still : Mirrors matchOn (overwrite patch entry) object) :
    List.Forall₂ (Mirrors matchOn) (updateFirst matchOn value patch existing) objects := by
  induction mirrors with
  | nil => cases found
  | @cons first first' _ _ mirrors rest ih =>
    rw [List.find?_cons] at found there
    rw [updateFirst]
    rw [← mirrors.isMatch] at there
    cases matched : isMatch matchOn value first with
    | true =>
      rw [matched] at found there
      obtain rfl := Option.some.inj found
      obtain rfl := Option.some.inj there
      exact .cons still rest
    | false =>
      rw [matched] at found there
      exact .cons mirrors (ih found there)

end Patch

/-! ### The applier beside the comparison -/

/-- What was sent from one run to the next changed nothing one can see. -/
def Quietly (run run' : Run) : Prop :=
  ∃ calls, run'.calls = run.calls ++ calls ∧ Quiet run.content calls ∧
    calls.foldl Call.applied run.content = run'.content

/-- What was sent from one run to the next changed something one can see. -/
def Loudly (run run' : Run) : Prop := ∃ calls, run'.calls = run.calls ++ calls ∧ ¬ Quiet run.content calls

/-- The content looks as it did, and each id is one object's. -/
structure Still (content : Content) (run : Run) : Prop where
  shown : SameShown run.content content
  identified : Identified run.content

section Follow

variable {server : Server} {content : Content} {type : String} {matchOn : List String}
  {existing : List Entry} {run run' : Run}

theorem quiet_append {calls more : List Call} : Quiet content (calls ++ more) ↔
    Quiet content calls ∧ Quiet (calls.foldl Call.applied content) more := by
  induction calls generalizing content with
  | nil => exact ⟨fun quiet => ⟨trivial, quiet⟩, fun both => both.2⟩
  | cons call calls ih =>
    rw [List.cons_append, Quiet, Quiet, ih, List.foldl_cons]
    simp only [and_assoc]

theorem Quietly.refl (run : Run) : Quietly run run := ⟨[], (List.append_nil _).symm, trivial, rfl⟩

theorem Quietly.trans {last : Run} (first : Quietly run run') (second : Quietly run' last) :
    Quietly run last := by
  obtain ⟨calls, logged, quiet, reached⟩ := first
  obtain ⟨more, logged', quiet', reached'⟩ := second
  refine ⟨calls ++ more, ?_, quiet_append.mpr ⟨quiet, reached ▸ quiet'⟩, ?_⟩
  · rw [logged', logged, List.append_assoc]
  · rw [List.foldl_append, reached, reached']

theorem Quietly.loudly {last : Run} (first : Quietly run run') (second : Loudly run' last) :
    Loudly run last := by
  obtain ⟨calls, logged, -, reached⟩ := first
  obtain ⟨more, logged', loud⟩ := second
  refine ⟨calls ++ more, ?_, fun quiet => loud (reached ▸ (quiet_append.mp quiet).2)⟩
  rw [logged', logged, List.append_assoc]

theorem Loudly.grows {last : Run} (loud : Loudly run run') (grows : Grows run' last) : Loudly run last := by
  obtain ⟨calls, logged, loud⟩ := loud
  obtain ⟨more, logged'⟩ := grows.calls
  refine ⟨calls ++ more, ?_, fun quiet => loud (quiet_append.mp quiet).1⟩
  rw [← logged', logged, List.append_assoc]

theorem quietly_single {call : Call} (logged : run'.calls = run.calls ++ [call])
    (stays : call.creates = false) (applied : call.applied run.content = run'.content)
    (same : SameShown run'.content run.content) : Quietly run run' :=
  ⟨[call], logged, ⟨stays, applied ▸ same, trivial⟩, applied⟩

theorem loudly_single {call : Call} (logged : run'.calls = run.calls ++ [call])
    (applied : call.applied run.content = run'.content)
    (differs : call.creates = true ∨ ¬ SameShown run'.content run.content) : Loudly run run' := by
  refine ⟨[call], logged, fun ⟨stays, same, _⟩ => ?_⟩
  rcases differs with creates | differs
  · rw [creates] at stays
    cases stays
  · exact differs (applied ▸ same)

theorem Still.ids (still : Still content run) (type : String) :
    (run.content type).map Object.id = (content type).map Object.id := by
  have firsts := congrArg (List.map Prod.fst) (still.shown type)
  rwa [List.map_map, List.map_map] at firsts

/-- An object of the content as the run has it. -/
theorem Still.object (still : Still content run) {object : Object} (there : object ∈ content type) :
    ∃ now ∈ run.content type, now.view = object.view := by
  have among : object.view ∈ (run.content type).map Object.view := by
    rw [still.shown type]
    exact List.mem_map_of_mem there
  exact List.mem_map.mp among

theorem Still.patch_iff (still : Still content run) {object : Object} (there : object ∈ content type)
    {patch : Members} (unnamed : "id" ∉ Dict.keys patch) :
    SameShown (Function.update run.content type (patchObjects object.id patch (run.content type)))
        run.content ↔
      ∀ key given, Dict.get patch key = some given → object.entry.value key = shownAs key given := by
  obtain ⟨now, among, looks⟩ := still.object there
  obtain ⟨ids, values⟩ := Prod.mk.inj looks
  rw [← ids, sameShown_patch_iff still.identified among unnamed, values]

theorem Still.patched (still : Still content run) {id : String} {patch : Members}
    (same : SameShown (Function.update run.content type (patchObjects id patch (run.content type)))
      run.content)
    (reached : run'.content = Function.update run.content type (patchObjects id patch (run.content type))) :
    Still content run' := by
  refine ⟨reached ▸ same.trans still.shown, fun other => ?_⟩
  rw [reached]
  by_cases mine : other = type
  · subst mine
    rw [Function.update_self, map_id_patchObjects]
    exact still.identified other
  · rw [Function.update_of_ne mine]
    exact still.identified other

theorem follows_matching {object : Object} {entry : Entry} (label : String) {value : Members}
    (still : Still content run) (there : object ∈ content type) (mirrors : Mirrors matchOn entry object)
    (matched : isMatch matchOn value entry = true) (once : (Dict.keys value).Nodup)
    (unnamed : "id" ∉ Dict.keys (patchOf matchOn value entry)) :
    if object.Has value then
      Quietly run (run.matching type matchOn label value entry) ∧
        Still content (run.matching type matchOn label value entry)
    else Loudly run (run.matching type matchOn label value entry) := by
  have shows := mirrors.has_iff once matched
  have named := mirrors.idOf
  have reached : (run.matching type matchOn label value entry).content =
      Function.update run.content type
        (patchObjects object.id (patchOf matchOn value entry) (run.content type)) := by
    rw [Run.matching, named]
  have logged : patchOf matchOn value entry ≠ [] →
      (run.matching type matchOn label value entry).calls =
        run.calls ++ [Call.patch type object.id (patchOf matchOn value entry)] := by
    intro changed
    simp only [Run.matching, named, if_neg changed]
  split
  · rename_i has
    have same := (still.patch_iff there unnamed).mpr (shows.mpr has)
    refine ⟨?_, still.patched same reached⟩
    by_cases nothing : patchOf matchOn value entry = []
    · refine ⟨[], ?_, trivial, ?_⟩
      · simp only [Run.matching, nothing, if_true]
      · rw [reached, nothing, patchObjects_nil, Function.update_eq_self, List.foldl_nil]
    · exact quietly_single (logged nothing) rfl reached.symm (reached ▸ same)
  · rename_i differs
    have changed : patchOf matchOn value entry ≠ [] := by
      intro nothing
      refine differs (shows.mp fun key given got => ?_)
      rw [nothing] at got
      cases got
    refine loudly_single (logged changed) reached.symm (Or.inr fun same => differs (shows.mp ?_))
    exact (still.patch_iff there unnamed).mp (reached ▸ same)

/-- A value of an upsert does as the comparison says. -/
def FollowsValue (content : Content) (type : String) (matchOn : List String) (run : Run)
    (result : Except Run (List Entry × Run)) : Compared → Prop
  | .raises => ∃ failed, result = .error failed ∧ Quietly run failed
  | .differs => ∃ existing' run', result = .ok (existing', run') ∧ Loudly run run'
  | .same ids => ∃ existing' run', result = .ok (existing', run') ∧ run'.ids = ids ∧ Quietly run run' ∧
      Still content run' ∧ List.Forall₂ (Mirrors matchOn) existing' (content type)

theorem follows_upsertValue (server : Server) (still : Still content run)
    (mirrors : List.Forall₂ (Mirrors matchOn) existing (content type)) (label : String) (value : Members) :
    FollowsValue content type matchOn run (upsertValue server type matchOn existing run label value)
      (compareValue content type matchOn run.ids label value) := by
  rw [compareValue]
  cases resolved : Value.resolveMembers (fun label => run.ids.get label) value with
  | none => exact ⟨run, upsertValue_of_unresolved resolved, .refl run⟩
  | some members =>
    have once := nodup_keys_dictOf members
    have pairs := find?_forall₂ mirrors fun _ _ mirrors => mirrors.isMatch (dictOf members)
    dsimp only
    cases there : (content type).find? fun object => isMatch matchOn (dictOf members) object.entry with
    | none =>
      rw [there] at pairs
      have absent : existing.find? (isMatch matchOn (dictOf members)) = none := by
        cases first : existing.find? (isMatch matchOn (dictOf members)) with
        | none => rfl
        | some entry => rw [first] at pairs; cases pairs
      rw [upsertValue_of_absent resolved absent]
      by_cases named : "id" ∈ Dict.keys (dictOf members)
      · rw [if_pos named, if_pos named]
        exact ⟨run, rfl, .refl run⟩
      · rw [if_neg named, if_neg named]
        exact ⟨_, _, rfl, [.create type (newObject server run.content type (dictOf members))], rfl,
          fun quiet => Bool.noConfusion quiet.1⟩
    | some object =>
      rw [there] at pairs
      cases first : existing.find? (isMatch matchOn (dictOf members)) with
      | none => rw [first] at pairs; cases pairs
      | some entry =>
        rw [first] at pairs
        cases pairs with
        | some pair =>
          have matched : isMatch matchOn (dictOf members) entry = true := List.find?_some first
          have among := List.mem_of_find?_eq_some there
          have refused := pair.refused_iff once matched
          show FollowsValue content type matchOn run _ (compareWith run.ids label (dictOf members) object)
          rw [compareWith]
          by_cases named : "id" ∈ Dict.keys (patchOf matchOn (dictOf members) entry)
          · rw [if_pos (refused.mp named)]
            exact ⟨_, upsertValue_of_refused resolved first named, [], (List.append_nil _).symm, trivial, rfl⟩
          · rw [if_neg fun differs => named (refused.mpr differs)]
            have allowed : idOf entry ∈ (run.content type).map Object.id := by
              rw [pair.idOf, still.ids]
              exact List.mem_map_of_mem among
            have follows := follows_matching label still among pair matched once named
            rw [upsertValue_of_matching resolved first fun _ => ⟨named, allowed⟩]
            by_cases has : object.Has (dictOf members)
            · rw [if_pos has] at follows ⊢
              refine ⟨_, _, rfl, ?_, follows.1, follows.2, ?_⟩
              · rw [Run.matching, pair.idOf]
              · exact mirrors_updateFirst mirrors first there (pair.overwritten once matched has named)
            · rw [if_neg has] at follows ⊢
              exact ⟨_, _, rfl, follows⟩

/-- **A part of the plan does as the comparison says.** -/
def Follows (content : Content) (run : Run) (result : Except Run Run) : Compared → Prop
  | .raises => ∃ failed, result = .error failed ∧ Quietly run failed
  | .differs => Loudly run (reachedBy result)
  | .same ids => ∃ run', result = .ok run' ∧ run'.ids = ids ∧ Quietly run run' ∧ Still content run'

theorem Follows.after {result : Except Run Run} {compared : Compared} (quiet : Quietly run run')
    (follows : Follows content run' result compared) : Follows content run result compared := by
  cases compared with
  | raises =>
    obtain ⟨failed, done, more⟩ := follows
    exact ⟨failed, done, quiet.trans more⟩
  | differs => exact quiet.loudly follows
  | same ids =>
    obtain ⟨last, done, labels, more, still⟩ := follows
    exact ⟨last, done, labels, quiet.trans more, still⟩

theorem follows_upsertAll {values : List (String × Members)} (still : Still content run)
    (mirrors : List.Forall₂ (Mirrors matchOn) existing (content type)) :
    Follows content run (upsertAll server type matchOn existing run values)
      (compareValues content type matchOn run.ids values) := by
  induction values generalizing existing run with
  | nil => exact ⟨run, rfl, rfl, .refl run, still⟩
  | cons entry rest ih =>
    obtain ⟨label, value⟩ := entry
    have first := follows_upsertValue server still mirrors label value
    rw [compareValues]
    cases compared : compareValue content type matchOn run.ids label value with
    | raises =>
      rw [compared] at first
      obtain ⟨failed, done, quiet⟩ := first
      rw [upsertAll, done]
      exact ⟨failed, rfl, quiet⟩
    | differs =>
      rw [compared] at first
      obtain ⟨existing', run', done, loud⟩ := first
      rw [upsertAll, done]
      exact loud.grows (grows_steps (steps_upsertAll server type matchOn rest existing' run'))
    | same ids =>
      rw [compared] at first
      obtain ⟨existing', run', done, rfl, quiet, still', mirrors'⟩ := first
      rw [upsertAll, done]
      exact (ih still' mirrors').after quiet

theorem follows_singleton {value : Members} (still : Still content run) :
    Follows content run (applyUpdate run type "" value) (compareSingleton content run.ids type value) := by
  rw [compareSingleton, applyUpdate]
  cases resolved : Value.resolveMembers (fun label => run.ids.get label) value with
  | none =>
    have labels : Value.resolveMembers run.labels value = none := resolved
    rw [labels]
    exact ⟨run, rfl, .refl run⟩
  | some members =>
    have labels : Value.resolveMembers run.labels value = some members := resolved
    rw [labels]
    dsimp only
    rw [if_neg (not_not.mpr rfl)]
    by_cases singleton : type ∈ singletonTypes
    · by_cases named : "id" ∈ Dict.keys (dictOf members)
      · rw [if_pos (Or.inr named), if_pos singleton, writeObject, updateObject,
          if_neg fun allowed => allowed.1 named]
        exact ⟨run, rfl, .refl run⟩
      · rw [if_neg (not_or.mpr ⟨not_not.mpr singleton, named⟩), if_pos singleton]
        cases there : (content type).find? fun object => object.id = singletonId with
        | none =>
          have absent : singletonId ∉ (run.content type).map Object.id := by
            rw [still.ids]
            intro among
            obtain ⟨object, among, same⟩ := List.mem_map.mp among
            exact List.find?_eq_none.mp there object among (decide_eq_true same)
          rw [writeObject, updateObject, if_neg fun allowed => absent allowed.2]
          exact ⟨run, rfl, .refl run⟩
        | some object =>
          have among := List.mem_of_find?_eq_some there
          have picked := List.find?_some there
          have same : object.id = singletonId := of_decide_eq_true picked
          have allowed : object.id ∈ (run.content type).map Object.id := by
            rw [still.ids]
            exact List.mem_map_of_mem among
          rw [← same, writeObject_of_mem named allowed]
          have once := nodup_keys_dictOf members
          have shows : (∀ key given, Dict.get (dictOf members) key = some given →
              object.entry.value key = shownAs key given) ↔ object.Has (dictOf members) :=
            ⟨fun has member given => has _ _ ((Dict.get_eq_some once).mpr given),
              fun has key given got => has (key, given) ((Dict.get_eq_some once).mp got)⟩
          have iff := (still.patch_iff among named).trans shows
          dsimp only
          by_cases has : object.Has (dictOf members)
          · rw [if_pos has]
            exact ⟨_, rfl, rfl, quietly_single rfl rfl rfl (iff.mpr has), still.patched (iff.mpr has) rfl⟩
          · rw [if_neg has]
            exact loudly_single rfl rfl (Or.inr fun same => has (iff.mp same))
    · rw [if_pos (Or.inl singleton), if_neg singleton]
      exact ⟨run, rfl, .refl run⟩

/-- An upsert, or an update of a singleton. -/
def Operation.pushes : Operation → Bool
  | .upsert _ _ _ => true
  | .update _ id _ => id = ""
  | _ => false

theorem follows_applyOperation {operation : Operation} (server : Server) (still : Still content run)
    (pushes : operation.pushes = true) :
    Follows content run (applyOperation server run operation)
      (compareOperation content run.ids operation) := by
  cases operation with
  | upsert type matchOn value => exact follows_upsertAll still (mirrors_getAll still.shown _ _)
  | update type id value =>
    obtain rfl : id = "" := of_decide_eq_true pushes
    exact follows_singleton still
  | create type matchOn value => cases pushes
  | destroy type value => cases pushes
  | unsupported kind => cases pushes

theorem follows_applyPlan {plan : List Operation} (still : Still content run)
    (pushes : ∀ operation ∈ plan, operation.pushes = true) :
    Follows content run (applyPlan server run plan) (compareExactly content run.ids plan) := by
  induction plan generalizing run with
  | nil => exact ⟨run, rfl, rfl, .refl run, still⟩
  | cons operation rest ih =>
    obtain ⟨mine, others⟩ := List.forall_mem_cons.mp pushes
    have first := follows_applyOperation server still mine
    rw [compareExactly, applyPlan]
    cases compared : compareOperation content run.ids operation with
    | raises =>
      rw [compared] at first
      obtain ⟨failed, done, quiet⟩ := first
      rw [done]
      exact ⟨failed, rfl, quiet⟩
    | differs =>
      rw [compared] at first
      cases done : applyOperation server run operation with
      | error failed =>
        rw [done] at first
        exact first
      | ok next =>
        rw [done] at first
        exact first.grows (grows_steps (steps_applyPlan server rest next))
    | same ids =>
      rw [compared] at first
      obtain ⟨run', done, rfl, quiet, still'⟩ := first
      rw [done]
      exact (ih still' others).after quiet

end Follow

/-! ### Flat plans -/

mutual

/-- A value without dicts and references. -/
def Value.isFlat : Value → Bool
  | .text content => (labelOf content).isNone
  | .list items => flatItems items
  | .dict _ => false
  | _ => true

def flatItems : List Value → Bool
  | [] => true
  | item :: items => item.isFlat && flatItems items

end

/-- What is given as it is: no `@type`, no label and no dict. -/
structure Flat (value : Members) : Prop where
  once : (Dict.keys value).Nodup
  plain : ∀ member ∈ value, member.1 ≠ "@type" ∧ labelOf member.1 = none ∧ member.2.isFlat = true

/-- An operation whose values are flat. -/
def Operation.Flat : Operation → Prop
  | .upsert _ _ value => ∀ entry ∈ value, Stalwart.Flat entry.2
  | .update _ _ value => Stalwart.Flat value
  | _ => True

section FlatPlan

variable {ids : Ids} {content : Content} {type : String} {matchOn : List String}

theorem resolve_of_isFlat (value : Value) (flat : value.isFlat = true) : value.resolve ids = some value := by
  induction value with
  | null => rfl
  | num value => rfl
  | text content =>
    rw [Value.isFlat, Option.isNone_iff_eq_none] at flat
    rw [Value.resolve, resolveText, flat]
    rfl
  | list items ih =>
    rw [Value.isFlat] at flat
    have each : Value.resolveItems ids items = some items := by
      induction items with
      | nil => rfl
      | cons item items rest =>
        obtain ⟨first, ih⟩ := List.forall_mem_cons.mp ih
        rw [flatItems, Bool.and_eq_true] at flat
        rw [Value.resolveItems, first flat.1, rest ih flat.2]
        rfl
    rw [Value.resolve, each]
    rfl
  | dict members => cases flat

theorem shown_of_isFlat (value : Value) (flat : value.isFlat = true) : value.shown = value := by
  induction value with
  | null => rfl
  | num value => rfl
  | text content => rfl
  | list items ih =>
    rw [Value.isFlat] at flat
    rw [Value.shown]
    congr 1
    induction items with
    | nil => rfl
    | cons item items rest =>
      obtain ⟨first, ih⟩ := List.forall_mem_cons.mp ih
      rw [flatItems, Bool.and_eq_true] at flat
      rw [Value.shownItems, first flat.1, rest ih flat.2]
  | dict members => cases flat

theorem eq_of_sameValue (wanted : Value) (flat : wanted.isFlat = true) {live : Value}
    (same : sameValue live wanted = true) : live = wanted := by
  induction wanted generalizing live with
  | null => exact of_decide_eq_true same
  | num value => exact of_decide_eq_true same
  | text content =>
    rw [Value.isFlat, Option.isNone_iff_eq_none] at flat
    cases live with
    | text id =>
      rw [sameValue, flat] at same
      exact of_decide_eq_true same
    | null => simp [sameValue, flat] at same
    | num value => simp [sameValue, flat] at same
    | list items => simp [sameValue, flat] at same
    | dict members => simp [sameValue, flat] at same
  | list items ih =>
    rw [Value.isFlat] at flat
    cases live with
    | list held =>
      rw [sameValue] at same
      congr 1
      induction items generalizing held with
      | nil =>
        cases held with
        | nil => rfl
        | cons => cases same
      | cons item items rest =>
        obtain ⟨first, ih⟩ := List.forall_mem_cons.mp ih
        rw [flatItems, Bool.and_eq_true] at flat
        cases held with
        | nil => cases same
        | cons live held =>
          rw [sameItems, Bool.and_eq_true] at same
          rw [first flat.1 same.1, rest ih flat.2 held same.2]
    | null => cases same
    | num value => cases same
    | text content => cases same
    | dict members => cases same
  | dict members => cases flat

theorem Flat.resolve {value : Members} (flat : Flat value) :
    Value.resolveMembers ids value = some value := by
  have each := flat.plain
  clear flat
  induction value with
  | nil => rfl
  | cons member rest ih =>
    obtain ⟨⟨-, unlabelled, flat⟩, others⟩ := List.forall_mem_cons.mp each
    rw [Value.resolveMembers, resolveText, unlabelled, Option.bind_some, resolve_of_isFlat member.2 flat,
      Option.bind_some, ih others]
    rfl

theorem Flat.get_dictOf {value : Members} (flat : Flat value) (key : String) :
    Dict.get (dictOf value) key = Dict.get value key := Stalwart.get_dictOf flat.once key

theorem Flat.mem_dictOf {value : Members} (flat : Flat value) {member : String × Value} :
    member ∈ dictOf value ↔ member ∈ value := by
  rw [← Dict.get_eq_some (nodup_keys_dictOf value), flat.get_dictOf, Dict.get_eq_some flat.once]

theorem Flat.isMatch {value : Members} (flat : Flat value) (entry : Entry) :
    isMatch matchOn (dictOf value) entry = isMatch matchOn value entry := by
  simp only [Stalwart.isMatch, flat.get_dictOf]

/-- **What the report finds no difference in, the object has.** -/
theorem Flat.has {value : Members} (flat : Flat value) {object : Object} {ref : String}
    (clean : drifted type object.entry value ref = []) : object.Has (dictOf value) := by
  intro member given
  have there := flat.mem_dictOf.mp given
  obtain ⟨untyped, -, plain⟩ := flat.plain member there
  by_cases hidden : isWriteOnly member.1 member.2 = true
  · have unsecret : isSecretValue member.2 = false := by
      cases named : member.2 with
      | dict members => rw [named] at plain; cases plain
      | null => rfl
      | num value => rfl
      | text content => rfl
      | list items => rfl
    have named : member.1 ∈ writeOnlyKeys := by
      rw [isWriteOnly, unsecret, Bool.or_false] at hidden
      exact of_decide_eq_true hidden
    rw [value_of_writeOnlyKey named, shownAs, if_pos hidden]
  · have kept := List.filter_eq_nil_iff.mp (List.map_eq_nil_iff.mp clean) member there
    have same : sameValue (object.entry.value member.1) member.2 = true := by
      by_contra differs
      exact kept (decide_eq_true ⟨not_or.mpr ⟨untyped, hidden⟩, Bool.eq_false_iff.mpr differs⟩)
    rw [shownAs, if_neg hidden, eq_of_sameValue member.2 plain same, shown_of_isFlat member.2 plain]

theorem compareWith_of_has {ids : Dict String String} {label : String} {value : Members} {object : Object}
    (has : object.Has value) : compareWith ids label value object ≠ .differs := by
  rw [compareWith, if_pos has]
  split
  · exact Compared.noConfusion
  · exact Compared.noConfusion

theorem compareValues_of_clean {values : List (String × Members)} {ids : Dict String String}
    (flat : ∀ entry ∈ values, Flat entry.2)
    (clean : ∀ entry ∈ values, ∃ object,
      (content type).find? (fun object => isMatch matchOn entry.2 object.entry) = some object ∧
        drifted type object.entry entry.2 entry.1 = []) :
    compareValues content type matchOn ids values ≠ .differs := by
  induction values generalizing ids with
  | nil => exact Compared.noConfusion
  | cons entry rest ih =>
    obtain ⟨mine, flat⟩ := List.forall_mem_cons.mp flat
    obtain ⟨⟨object, found, none⟩, clean⟩ := List.forall_mem_cons.mp clean
    have first : compareValue content type matchOn ids entry.1 entry.2 ≠ .differs := by
      rw [compareValue, mine.resolve]
      simp only [mine.isMatch, found]
      exact compareWith_of_has (mine.has none)
    rw [compareValues]
    cases compared : compareValue content type matchOn ids entry.1 entry.2 with
    | differs => exact absurd compared first
    | raises => exact Compared.noConfusion
    | same ids => exact ih flat clean

theorem compareSingleton_of_clean {value : Members} {ids : Dict String String} (flat : Flat value)
    (clean : drifted type (readSingleton content type) value "" = []) :
    compareSingleton content ids type value ≠ .differs := by
  rw [compareSingleton, flat.resolve]
  dsimp only
  split
  · exact Compared.noConfusion
  · cases found : (content type).find? fun object => object.id = singletonId with
    | none => exact Compared.noConfusion
    | some object =>
      rw [readSingleton, found] at clean
      dsimp only
      rw [if_pos (flat.has clean)]
      exact Compared.noConfusion

theorem compareOperation_of_clean {operation : Operation} (ids : Dict String String)
    (pushes : operation.pushes = true) (flat : operation.Flat) (clean : driftOf content operation = []) :
    compareOperation content ids operation ≠ .differs := by
  cases operation with
  | upsert type matchOn value =>
    refine compareValues_of_clean flat fun entry there => ?_
    have nothing := List.flatMap_eq_nil_iff.mp clean entry there
    dsimp only at nothing
    rw [getAll, List.find?_map] at nothing
    cases found : (content type).find? fun object => isMatch (matchKeys matchOn) entry.2 object.entry with
    | none =>
      have absent : (content type).find? (isMatch (matchKeys matchOn) entry.2 ∘ Object.entry) = none := found
      rw [absent] at nothing
      cases nothing
    | some object =>
      have there : (content type).find? (isMatch (matchKeys matchOn) entry.2 ∘ Object.entry) = some object :=
        found
      rw [there] at nothing
      exact ⟨object, rfl, nothing⟩
  | update type id value =>
    obtain rfl : id = "" := of_decide_eq_true pushes
    exact compareSingleton_of_clean flat clean
  | create type matchOn value => cases pushes
  | destroy type value => cases pushes
  | unsupported kind => cases pushes

theorem compareExactly_of_clean {plan : List Operation} {ids : Dict String String}
    (pushes : ∀ operation ∈ plan, operation.pushes = true) (flat : ∀ operation ∈ plan, operation.Flat)
    (clean : driftReport content plan = []) : compareExactly content ids plan ≠ .differs := by
  induction plan generalizing ids with
  | nil => exact Compared.noConfusion
  | cons operation rest ih =>
    obtain ⟨mine, pushes⟩ := List.forall_mem_cons.mp pushes
    obtain ⟨plain, flat⟩ := List.forall_mem_cons.mp flat
    rw [driftReport, List.flatMap_cons, List.append_eq_nil_iff] at clean
    obtain ⟨none, clean⟩ := clean
    have first := compareOperation_of_clean ids mine plain none
    rw [compareExactly]
    cases compared : compareOperation content ids operation with
    | differs => exact absurd compared first
    | raises => exact Compared.noConfusion
    | same ids => exact ih pushes flat clean

end FlatPlan

/-! ### No drift -/

theorem still_start {content : Content} (identified : Identified content) :
    Still content (Run.start content) :=
  ⟨.refl content, identified⟩

theorem quiet_applyPlan_iff (server : Server) (content : Content) (plan : List Operation)
    (identified : Identified content) (pushes : ∀ operation ∈ plan, operation.pushes = true) :
    Quiet content (reachedBy (applyPlan server (Run.start content) plan)).calls ↔
      compareExactly content [] plan ≠ .differs := by
  have follows : Follows content (Run.start content) (applyPlan server (Run.start content) plan)
      (compareExactly content [] plan) := follows_applyPlan (still_start identified) pushes
  have quietly : ∀ {run : Run}, Quietly (Run.start content) run → Quiet content run.calls := by
    rintro run ⟨calls, logged, quiet, -⟩
    rw [logged]
    exact quiet
  cases compared : compareExactly content [] plan with
  | differs =>
    rw [compared] at follows
    obtain ⟨calls, logged, loud⟩ := follows
    rw [logged]
    exact ⟨fun quiet => absurd quiet loud, fun differs => absurd rfl differs⟩
  | raises =>
    rw [compared] at follows
    obtain ⟨failed, done, quiet⟩ := follows
    rw [done]
    exact ⟨fun _ => Compared.noConfusion, fun _ => quietly quiet⟩
  | same ids =>
    rw [compared] at follows
    obtain ⟨run, done, -, quiet, -⟩ := follows
    rw [done]
    exact ⟨fun _ => Compared.noConfusion, fun _ => quietly quiet⟩

/-- A provider, and the setting that names it. -/
def providerAndSetting : List Operation :=
  [.upsert "DnsServer" [] [("dns", [("name", .text "a")])],
    .update "SystemSettings" "" [("dnsServerId", .text "#dns")]]

/-- Two providers, and the one that the setting names. -/
def twoProviders (held : String) : Content := fun type =>
  if type = "DnsServer" then
    [⟨"x", fun key => Dict.get [("name", .text "a")] key⟩,
      ⟨"y", fun key => Dict.get [("name", .text "b")] key⟩]
  else if type = "SystemSettings" then [⟨"singleton", fun key => Dict.get [("dnsServerId", .text held)] key⟩]
  else []

theorem identified_twoProviders (held : String) : Identified (twoProviders held) := by
  intro type
  rw [twoProviders]
  split
  · simp
  · split
    · simp
    · exact List.nodup_nil

/-- What a dict holds beyond the plan is not looked at either. -/
example : driftReport (fun _ => [⟨"singleton", fun _ => some (.dict [("a", .num 1), ("b", .num 1)])⟩])
      [.update "Jmap" "" [("set", .dict [("a", .num 1)])]] = [] ∧
    compareExactly (fun _ => [⟨"singleton", fun _ => some (.dict [("a", .num 1), ("b", .num 1)])⟩]) []
      [.update "Jmap" "" [("set", .dict [("a", .num 1)])]] = .differs := by
  decide

end SuiteCloud.Mail.Stalwart
