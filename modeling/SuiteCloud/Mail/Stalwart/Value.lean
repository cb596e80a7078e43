/-
**What is sent to a Stalwart server and what it shows.**

The values of a plan (`suite_cloud/mail/stalwart/client.py`): `_resolve` puts the ids of earlier
operations for their labels; `is_write_only` tells the values that a server never shows.

* `Value` — a JSON value as Python holds it.
* `Value.resolve` — `_resolve`.
* `Value.shown` — a value without what is write-only.
* `shown_shown` — what is shown is shown as it is.
* `resolve_eq_none_iff` — a value with a label of no operation before is what makes `_resolve` raise.
-/

import Mathlib.Data.Int.Notation
import Mathlib.Data.String.Basic
import SuiteCloud.Library.Dict
import SuiteCloud.Library.Maps

namespace SuiteCloud.Mail.Stalwart

open SuiteCloud.Library

/-- **A JSON value as Python holds it.** `True` and `False` are the 1 and 0 they equal. A dict is the
list of its members in the order of their keys, so that dicts of the same members are one. -/
inductive Value
  | null
  | num (value : ℤ)
  | text (content : String)
  | list (items : List Value)
  | dict (members : List (String × Value))

/-- The members of a dict. -/
abbrev Members := Dict String Value

namespace Value

/-- **Induction over values**: over the items of a list and the members of a dict. -/
@[induction_eliminator]
theorem ind {motive : Value → Prop} (null : motive .null) (num : ∀ value, motive (.num value))
    (text : ∀ content, motive (.text content))
    (list : ∀ items, (∀ item ∈ items, motive item) → motive (.list items))
    (dict : ∀ members, (∀ member ∈ members, motive member.2) → motive (.dict members)) (value : Value) :
    motive value :=
  @Value.rec motive (fun items => ∀ item ∈ items, motive item)
    (fun members => ∀ member ∈ members, motive member.2) (fun member => motive member.2) null num text list dict
    (fun _ absent => absurd absent List.not_mem_nil)
    (fun _ _ first rest => List.forall_mem_cons.mpr ⟨first, rest⟩)
    (fun _ absent => absurd absent List.not_mem_nil)
    (fun _ _ first rest => List.forall_mem_cons.mpr ⟨first, rest⟩)
    (fun _ _ same => same)
    value

/-! ### Equality -/

mutual

/-- `==`. -/
def same : Value → Value → Bool
  | .null, .null => true
  | .num value, .num other => value = other
  | .text content, .text other => content = other
  | .list items, .list others => sameItems items others
  | .dict members, .dict others => sameMembers members others
  | _, _ => false

def sameItems : List Value → List Value → Bool
  | [], [] => true
  | item :: items, other :: others => same item other && sameItems items others
  | _, _ => false

def sameMembers : List (String × Value) → List (String × Value) → Bool
  | [], [] => true
  | (key, value) :: members, (key', value') :: others =>
      decide (key = key') && same value value' && sameMembers members others
  | _, _ => false

end

theorem sameItems_iff {items others : List Value}
    (each : ∀ item ∈ items, ∀ other, same item other = true ↔ item = other) :
    sameItems items others = true ↔ items = others := by
  induction items generalizing others with
  | nil => cases others <;> simp [sameItems]
  | cons item items ih =>
    obtain ⟨first, rest⟩ := List.forall_mem_cons.mp each
    cases others with
    | nil => simp [sameItems]
    | cons other others => simp [sameItems, first other, ih rest]

theorem sameMembers_iff {members others : List (String × Value)}
    (each : ∀ member ∈ members, ∀ other, same member.2 other = true ↔ member.2 = other) :
    sameMembers members others = true ↔ members = others := by
  induction members generalizing others with
  | nil => cases others <;> simp [sameMembers]
  | cons member members ih =>
    obtain ⟨first, rest⟩ := List.forall_mem_cons.mp each
    cases others with
    | nil => simp [sameMembers]
    | cons other others => simp [sameMembers, first other.2, ih rest, Prod.ext_iff, and_assoc]

theorem same_iff (value other : Value) : same value other = true ↔ value = other := by
  induction value generalizing other with
  | null => cases other <;> simp [same]
  | num value => cases other <;> simp [same]
  | text content => cases other <;> simp [same]
  | list items ih => cases other <;> simp [same, sameItems_iff ih]
  | dict members ih => cases other <;> simp [same, sameMembers_iff ih]

instance : DecidableEq Value := fun value other => decidable_of_iff _ (same_iff value other)

end Value

/-! ### Write-only values -/

/-- `WRITE_ONLY_KEYS`. -/
def writeOnlyKeys : List String :=
  ["credentials", "secret", "authSecret", "secretKey", "secretAccessKey", "apiKey", "licenseKey"]

/-- The value is a secret one. -/
def isSecretValue : Value → Bool
  | .dict members =>
      decide (Dict.get members "@type" = some (.text "Value")) && decide ("secret" ∈ Dict.keys members)
  | _ => false

/-- **`is_write_only`.** -/
def isWriteOnly (key : String) (value : Value) : Bool := decide (key ∈ writeOnlyKeys) || isSecretValue value

namespace Value

mutual

/-- A value as a server shows it: without what is write-only. -/
def shown : Value → Value
  | .list items => .list (shownItems items)
  | .dict members => .dict (shownMembers members)
  | value => value

def shownItems : List Value → List Value
  | [] => []
  | item :: items => item.shown :: shownItems items

def shownMembers : List (String × Value) → List (String × Value)
  | [] => []
  | (key, value) :: members =>
      if isWriteOnly key value then shownMembers members else (key, value.shown) :: shownMembers members

end

theorem shownItems_eq_map (items : List Value) : shownItems items = items.map shown := by
  induction items with
  | nil => rfl
  | cons item items ih => rw [shownItems, ih, List.map_cons]

theorem mem_shownMembers {members : Members} {entry : String × Value} :
    entry ∈ shownMembers members ↔
      ∃ member ∈ members, isWriteOnly member.1 member.2 = false ∧ entry = (member.1, member.2.shown) := by
  induction members with
  | nil => simp [shownMembers]
  | cons member members ih =>
    rw [shownMembers]
    by_cases hidden : isWriteOnly member.1 member.2 = true
    · rw [if_pos hidden, ih]
      simp [hidden]
    · rw [if_neg hidden, List.mem_cons, ih]
      simp [Bool.eq_false_iff.mpr hidden]

theorem isSecretValue_shown (value : Value) : isSecretValue value.shown = false := by
  cases value with
  | dict members =>
    rw [shown, isSecretValue, Bool.and_eq_false_iff]
    refine Or.inr (decide_eq_false fun secret => ?_)
    obtain ⟨entry, member, same⟩ := List.mem_map.mp secret
    obtain ⟨own, -, hidden, rfl⟩ := mem_shownMembers.mp member
    rw [same] at hidden
    simp [isWriteOnly, writeOnlyKeys] at hidden
  | null => rfl
  | num value => rfl
  | text content => rfl
  | list items => rfl

theorem isWriteOnly_shown {key : String} {value : Value} (visible : isWriteOnly key value = false) :
    isWriteOnly key value.shown = false := by
  rw [isWriteOnly, Bool.or_eq_false_iff] at visible ⊢
  exact ⟨visible.1, isSecretValue_shown value⟩

theorem shown_shown (value : Value) : value.shown.shown = value.shown := by
  induction value with
  | null => rfl
  | num value => rfl
  | text content => rfl
  | list items ih =>
    rw [shown, shown, shownItems_eq_map, shownItems_eq_map, List.map_map]
    exact congrArg _ (List.map_congr_left ih)
  | dict members ih =>
    rw [shown, shown]
    congr 1
    induction members with
    | nil => rfl
    | cons member members rest =>
      obtain ⟨first, ih⟩ := List.forall_mem_cons.mp ih
      rw [shownMembers]
      split
      · exact rest ih
      · rename_i visible
        rw [shownMembers, isWriteOnly_shown (Bool.eq_false_iff.mpr visible), if_neg Bool.false_ne_true, first,
          rest ih]

end Value

/-! ### References -/

/-- The ids of labels. -/
abbrev Ids := String → Option String

/-- The label that a text refers to. -/
def labelOf (text : String) : Option String :=
  match text.toList with
  | '#' :: label => some (String.ofList label)
  | _ => none

/-- `_resolve` of a text; `none` where it raises. -/
def resolveText (ids : Ids) (text : String) : Option String :=
  match labelOf text with
  | some label => ids label
  | none => some text

/-- A member put in its place. -/
def setMember (key : String) (value : Value) : Members → Members
  | [] => [(key, value)]
  | (other, held) :: rest =>
      if key = other then (key, value) :: rest
      else if key < other then (key, value) :: (other, held) :: rest
      else (other, held) :: setMember key value rest

/-- A dict of members; a later one takes the place of an earlier one of its key. -/
def dictOf (members : List (String × Value)) : Members :=
  members.foldl (fun dict member => setMember member.1 member.2 dict) []

theorem mem_keys_setMember {key other : String} {value : Value} {members : Members} :
    other ∈ Dict.keys (setMember key value members) ↔ other = key ∨ other ∈ Dict.keys members := by
  induction members with
  | nil => simp [setMember, Dict.keys]
  | cons member members ih =>
    have there : other ∈ Dict.keys (member :: members) ↔ other = member.1 ∨ other ∈ Dict.keys members :=
      List.mem_cons
    rw [setMember]
    split
    · rename_i same
      rw [there, ← same]
      exact List.mem_cons.trans or_self_left.symm
    · split
      · exact List.mem_cons
      · rw [there, or_left_comm, ← ih]
        exact List.mem_cons

theorem sorted_setMember {key : String} {value : Value} {members : Members}
    (sorted : (Dict.keys members).Pairwise (· < ·)) :
    (Dict.keys (setMember key value members)).Pairwise (· < ·) := by
  induction members with
  | nil => exact List.pairwise_singleton _ _
  | cons member members ih =>
    obtain ⟨first, rest⟩ := List.pairwise_cons.mp sorted
    rw [setMember]
    split
    · rename_i same
      exact List.pairwise_cons.mpr ⟨fun other there => same ▸ first other there, rest⟩
    · rename_i differs
      split
      · rename_i below
        refine List.pairwise_cons.mpr ⟨fun other there => ?_, sorted⟩
        rcases List.mem_cons.mp there with rfl | there
        · exact below
        · exact below.trans (first other there)
      · rename_i above
        refine List.pairwise_cons.mpr ⟨fun other there => ?_, ih rest⟩
        rcases mem_keys_setMember.mp there with rfl | there
        · exact lt_of_le_of_ne (not_lt.mp above) (Ne.symm differs)
        · exact first other there

theorem nodup_keys_dictOf (members : List (String × Value)) : (Dict.keys (dictOf members)).Nodup := by
  have sorted : ∀ (members : List (String × Value)) (dict : Members), (Dict.keys dict).Pairwise (· < ·) →
      (Dict.keys (members.foldl (fun dict member => setMember member.1 member.2 dict) dict)).Pairwise
        (· < ·) := by
    intro members
    induction members with
    | nil => exact fun dict sorted => sorted
    | cons member members ih => exact fun dict sorted => ih _ (sorted_setMember sorted)
  exact (sorted members [] List.Pairwise.nil).imp ne_of_lt

theorem get_setMember {key other : String} {value : Value} {members : Members} :
    Dict.get (setMember key value members) other =
      if other = key then some value else Dict.get members other := by
  induction members with
  | nil =>
    by_cases same : other = key
    · simp [setMember, Dict.get, same]
    · simp [setMember, Dict.get, same, Ne.symm same]
  | cons member members ih =>
    rw [setMember]
    split
    · rename_i mine
      by_cases same : other = key
      · simp [Dict.get, same]
      · simp [Dict.get, same, Ne.symm same, ← mine]
    · split
      · by_cases same : other = key
        · simp [Dict.get, same]
        · simp [Dict.get, same, Ne.symm same]
      · rename_i differs _
        by_cases first : member.1 = other
        · simp [Dict.get, ← first, Ne.symm differs]
        · have rest : Dict.get (member :: setMember key value members) other =
              Dict.get (setMember key value members) other := by simp [Dict.get, first]
          have others : Dict.get (member :: members) other = Dict.get members other := by
            simp [Dict.get, first]
          rw [rest, ih, others]

theorem get_dictOf {members : List (String × Value)} (distinct : (members.map Prod.fst).Nodup)
    (key : String) :
    Dict.get (dictOf members) key = Dict.get members key := by
  have after : ∀ dict : Members,
      Dict.get (members.foldl (fun dict member => setMember member.1 member.2 dict) dict) key =
        (Dict.get members key).or (Dict.get dict key) := by
    induction members with
    | nil => exact fun dict => rfl
    | cons member members ih =>
      intro dict
      obtain ⟨first, distinct⟩ := List.nodup_cons.mp distinct
      rw [List.foldl_cons, ih distinct, get_setMember]
      by_cases same : key = member.1
      · have absent : Dict.get members key = none := Dict.get_eq_none.mpr (same ▸ first)
        rw [absent, if_pos same, Option.none_or]
        simp [Dict.get, ← same]
      · rw [if_neg same]
        simp [Dict.get, Ne.symm same]
  exact (after []).trans Option.or_none

namespace Value

mutual

/-- **`_resolve`**; `none` where it raises. -/
def resolve (ids : Ids) : Value → Option Value
  | .null => some .null
  | .num value => some (.num value)
  | .text content => (resolveText ids content).map .text
  | .list items => (resolveItems ids items).map .list
  | .dict members => (resolveMembers ids members).map fun members => .dict (dictOf members)

def resolveItems (ids : Ids) : List Value → Option (List Value)
  | [] => some []
  | item :: items => (item.resolve ids).bind fun item => (resolveItems ids items).map (item :: ·)

def resolveMembers (ids : Ids) : List (String × Value) → Option (List (String × Value))
  | [] => some []
  | (key, value) :: members =>
      (resolveText ids key).bind fun key => (value.resolve ids).bind fun value =>
        (resolveMembers ids members).map ((key, value) :: ·)

end

mutual

/-- The labels a value refers to, in its texts and keys. -/
def references : Value → List String
  | .text content => (labelOf content).toList
  | .list items => referencesItems items
  | .dict members => referencesMembers members
  | _ => []

def referencesItems : List Value → List String
  | [] => []
  | item :: items => item.references ++ referencesItems items

def referencesMembers : List (String × Value) → List String
  | [] => []
  | (key, value) :: members => (labelOf key).toList ++ value.references ++ referencesMembers members

end

@[simp] theorem references_null : references .null = [] := rfl

@[simp] theorem references_num (value : ℤ) : references (.num value) = [] := rfl

@[simp] theorem references_dict (members : List (String × Value)) :
    references (.dict members) = referencesMembers members := rfl

@[simp] theorem referencesMembers_nil : referencesMembers [] = [] := rfl

@[simp] theorem references_plain {text : String} (plain : labelOf text = none) :
    references (.text text) = [] := by
  rw [references, plain]
  rfl

@[simp] theorem referencesMembers_plain {key : String} {value : Value} {members : List (String × Value)}
    (plain : labelOf key = none) :
    referencesMembers ((key, value) :: members) = value.references ++ referencesMembers members := by
  rw [referencesMembers, plain]
  rfl

theorem mem_references_text {label text : String} :
    label ∈ references (.text text) ↔ labelOf text = some label := by
  rw [references, Option.mem_toList]

theorem mem_referencesMembers {label : String} {members : List (String × Value)} :
    label ∈ referencesMembers members ↔
      ∃ member ∈ members, labelOf member.1 = some label ∨ label ∈ member.2.references := by
  induction members with
  | nil => simp
  | cons member members ih => simp [referencesMembers, ih, or_assoc]

end Value

section Resolve

variable {ids : Ids}

theorem resolveText_eq_none {text : String} :
    resolveText ids text = none ↔ ∃ label ∈ (labelOf text).toList, ids label = none := by
  rw [resolveText]
  cases labelOf text with
  | none => simp
  | some label => simp

theorem resolveItems_eq_none {items : List Value}
    (each : ∀ item ∈ items, item.resolve ids = none ↔ ∃ label ∈ item.references, ids label = none) :
    Value.resolveItems ids items = none ↔ ∃ label ∈ Value.referencesItems items, ids label = none := by
  induction items with
  | nil => simp [Value.resolveItems, Value.referencesItems]
  | cons item items ih =>
    obtain ⟨first, rest⟩ := List.forall_mem_cons.mp each
    simp only [Value.referencesItems, List.mem_append, or_and_right, exists_or, ← first, ← ih rest]
    rw [Value.resolveItems]
    cases item.resolve ids with
    | none => simp
    | some item => simp

theorem resolveMembers_eq_none {members : List (String × Value)}
    (each : ∀ member ∈ members,
      member.2.resolve ids = none ↔ ∃ label ∈ member.2.references, ids label = none) :
    Value.resolveMembers ids members = none ↔
      ∃ label ∈ Value.referencesMembers members, ids label = none := by
  induction members with
  | nil => simp [Value.resolveMembers, Value.referencesMembers]
  | cons member members ih =>
    obtain ⟨first, rest⟩ := List.forall_mem_cons.mp each
    simp only [Value.referencesMembers, List.mem_append, or_and_right, exists_or, ← first, ← ih rest,
      ← resolveText_eq_none]
    rw [Value.resolveMembers]
    cases resolveText ids member.1 with
    | none => simp
    | some key =>
      cases member.2.resolve ids with
      | none => simp
      | some value => simp

/-- **`_resolve` raises where a label is of no operation before.** -/
theorem resolve_eq_none_iff (value : Value) :
    value.resolve ids = none ↔ ∃ label ∈ value.references, ids label = none := by
  induction value with
  | null => simp [Value.resolve, Value.references]
  | num value => simp [Value.resolve, Value.references]
  | text content => simp [Value.resolve, Value.references, resolveText_eq_none]
  | list items ih =>
    simp only [Value.resolve, Value.references, Option.map_eq_none_iff, resolveItems_eq_none ih]
  | dict members ih =>
    simp only [Value.resolve, Value.references, Option.map_eq_none_iff, resolveMembers_eq_none ih]

end Resolve

end SuiteCloud.Mail.Stalwart
