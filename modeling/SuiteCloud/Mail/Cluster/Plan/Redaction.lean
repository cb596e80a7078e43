/-
**Plans: what their display and their list of secrets say of the secrets.**

`redacted` of `suite_cloud/mail/cluster/plan.py` is the plan that is stored and shown, and `secret_strings`
lists what is masked in the output of jobs. Each goes over a plan of its own: one hides, one collects.

* `SameButSecrets` — two plans that differ only in strings under secret keys.
* `valueAt`, `Stands` — a place of a plan, and a string that stands there under a secret key.
* `alike_of_sameButSecrets` — **what is shown does not depend on the secrets**.
* `mem_slots_iff` — **what is collected** is what stands under a secret key somewhere.
* `valueAt_redact` — **what is hidden**: at such a place is the marker, or nothing.
-/

import SuiteCloud.Mail.Cluster.Plan.Marker

set_option linter.unusedSectionVars false

namespace SuiteCloud.Mail.Cluster.Marker

open SuiteCloud.Library Json

variable {N : Type} [Numeral N]

mutual

/-- **The same but for strings under secret keys**: a string is under the key in both. -/
def SameButSecrets : Json N → Json N → Prop
  | .list items, .list others => SameItems items others
  | .object members, .object others => SameMembers members others
  | value, other => value = other

def SameItems : List (Json N) → List (Json N) → Prop
  | [], [] => True
  | item :: rest, other :: others => SameButSecrets item other ∧ SameItems rest others
  | _, _ => False

def SameMembers : List (String × Json N) → List (String × Json N) → Prop
  | [], [] => True
  | (key, item) :: rest, (key', other) :: others =>
      key = key' ∧ ((key ∈ secretKeys ∧ ∃ content content', item = .text content ∧ other = .text content') ∨
        SameButSecrets item other) ∧ SameMembers rest others
  | _, _ => False

end

/-- A step into a value: to what is under a key, or to an item of a list. -/
inductive Step
  | member (key : String)
  | item (index : ℕ)

def child : Json N → Step → Option (Json N)
  | .object members, .member key => Dict.get members key
  | .list items, .item index => items[index]?
  | _, _ => none

/-- The value at a place of a value. -/
def valueAt : Json N → List Step → Option (Json N)
  | value, [] => some value
  | value, step :: place => (child value step).bind fun inner => valueAt inner place

/-- **A string stands under a secret key** of what is at a place. -/
def Stands (value : Json N) (place : List Step) (key content : String) : Prop :=
  key ∈ secretKeys ∧ valueAt value (place ++ [Step.member key]) = some (.text content)

/-! ## What is shown -/

section Shown

variable {items : List (Json N)} {members : List (String × Json N)}

theorem alikeItems_of_sameItems (alike : ∀ item ∈ items, ∀ other, SameButSecrets item other → Alike item other)
    (others : List (Json N)) (same : SameItems items others) : AlikeItems items others := by
  induction items generalizing others with
  | nil =>
    cases others with
    | nil => trivial
    | cons other others => exact same.elim
  | cons item items ih =>
    obtain ⟨first, later⟩ := List.forall_mem_cons.mp alike
    cases others with
    | nil => exact same.elim
    | cons other others => exact ⟨first other same.1, ih later others same.2⟩

theorem alikeMembers_of_sameMembers
    (alike : ∀ member ∈ members, ∀ other, SameButSecrets member.2 other → Alike member.2 other)
    (others : List (String × Json N)) (same : SameMembers members others) : AlikeMembers members others := by
  induction members generalizing others with
  | nil =>
    cases others with
    | nil => trivial
    | cons other others => exact same.elim
  | cons member members ih =>
    obtain ⟨first, later⟩ := List.forall_mem_cons.mp alike
    cases others with
    | nil => exact same.elim
    | cons other others =>
      obtain ⟨keys, here, rest⟩ := same
      refine ⟨keys, ?_, ih later others rest⟩
      rcases here with ⟨secret, content, content', text, text'⟩ | inner
      · exact Or.inl ⟨secretText_isSome.mpr ⟨secret, content, text⟩, secretText_isSome.mpr ⟨secret, content', text'⟩⟩
      · exact Or.inr (first _ inner)

/-- **What is shown does not depend on the secrets**: values that are the same but for them are alike. -/
theorem alike_of_sameButSecrets (value other : Json N) (same : SameButSecrets value other) : Alike value other := by
  induction value using ind generalizing other with
  | list items ih =>
    cases other with
    | list others => exact alikeItems_of_sameItems ih others same
    | _ => cases same
  | object members ih =>
    cases other with
    | object others => exact Or.inr (alikeMembers_of_sameMembers ih others same)
    | _ => cases same
  | _ =>
    cases other with
    | _ => cases same <;> rfl

end Shown

/-! ## What is collected -/

section Collected

variable {items : List (Json N)} {members : List (String × Json N)} {content : String}

theorem mem_slotsOfItems : content ∈ slotsOfItems items ↔ ∃ item ∈ items, content ∈ slots item := by
  induction items with
  | nil => simp [slotsOfItems]
  | cons item items ih => simp only [slotsOfItems, List.mem_append, ih, List.mem_cons, exists_eq_or_imp]

theorem mem_slotsOfMembers : content ∈ slotsOfMembers members ↔
    ∃ member ∈ members, secretText member.1 member.2 = some content ∨ content ∈ slots member.2 := by
  induction members with
  | nil => simp [slotsOfMembers]
  | cons member members ih =>
    obtain ⟨key, item⟩ := member
    simp only [slotsOfMembers, List.mem_append, ih, List.mem_cons, exists_eq_or_imp]
    refine or_congr_left ?_
    cases secret : secretText key item with
    | none => simp
    | some own =>
      -- A text holds no strings under keys.
      obtain ⟨-, content', rfl⟩ := secretText_isSome.mp (Option.isSome_iff_exists.mpr ⟨_, secret⟩)
      simp [slots, eq_comm]

theorem secretText_eq_some {key : String} {item : Json N} :
    secretText key item = some content ↔ key ∈ secretKeys ∧ item = .text content := by
  cases item with
  | text own => simp [secretText]
  | _ => simp [secretText]

/-- **What is collected**: a string that stands under a secret key somewhere. -/
theorem mem_slots_iff (value : Json N) (distinct : keyed value = true) :
    content ∈ slots value ↔ ∃ place key, Stands value place key content := by
  induction value using ind with
  | list items ih =>
    rw [slots, mem_slotsOfItems]
    constructor
    · rintro ⟨item, member, inside⟩
      obtain ⟨index, found⟩ := List.mem_iff_getElem?.mp member
      obtain ⟨place, key, secret, stands⟩ := (ih item member (keyedItems_iff.mp distinct item member)).mp inside
      refine ⟨.item index :: place, key, secret, ?_⟩
      rw [List.cons_append, valueAt, child, found, Option.bind_some, stands]
    · rintro ⟨place, key, secret, stands⟩
      cases place with
      | nil => cases stands
      | cons step place =>
        cases step with
        | member name => cases stands
        | item index =>
          obtain ⟨item, found, stands⟩ := Option.bind_eq_some_iff.mp stands
          have member := List.mem_of_getElem? found
          exact ⟨item, member,
            (ih item member (keyedItems_iff.mp distinct item member)).mpr ⟨place, key, secret, stands⟩⟩
  | object members ih =>
    obtain ⟨keys, values⟩ := (Bool.and_eq_true _ _).mp distinct
    have get {key : String} {item : Json N} : Dict.get members key = some item ↔ (key, item) ∈ members :=
      Dict.get_eq_some (of_decide_eq_true keys)
    have held := keyedMembers_iff.mp values
    rw [slots, mem_slotsOfMembers]
    constructor
    · rintro ⟨⟨name, item⟩, member, own | inside⟩
      · obtain ⟨secret, rfl⟩ := secretText_eq_some.mp own
        refine ⟨[], name, secret, ?_⟩
        rw [List.nil_append, valueAt, child, get.mpr member]
        rfl
      · obtain ⟨place, key, secret, stands⟩ := (ih _ member (held _ member)).mp inside
        refine ⟨.member name :: place, key, secret, ?_⟩
        rw [List.cons_append, valueAt, child, get.mpr member, Option.bind_some, stands]
    · rintro ⟨place, key, secret, stands⟩
      cases place with
      | nil =>
        obtain ⟨item, found, same⟩ := Option.bind_eq_some_iff.mp stands
        obtain rfl := Option.some.inj same
        exact ⟨_, get.mp found, Or.inl (secretText_eq_some.mpr ⟨secret, rfl⟩)⟩
      | cons step place =>
        cases step with
        | item index => cases stands
        | member name =>
          obtain ⟨item, found, stands⟩ := Option.bind_eq_some_iff.mp stands
          have member := get.mp found
          exact ⟨_, member, Or.inr ((ih _ member (held _ member)).mpr ⟨place, key, secret, stands⟩)⟩
  | _ =>
    refine iff_of_false List.not_mem_nil ?_
    rintro ⟨place, key, secret, stands⟩
    cases place with
    | _ => cases stands

theorem mem_secretStrings_iff (plan : Plan N) : content ∈ secretStrings plan.operations ↔
    content ≠ "" ∧ ∃ place key, Stands (.list plan.operations) place key content := by
  rw [secretStrings_eq, List.mem_eraseDups, List.mem_filter, decide_eq_true_iff, and_comm]
  exact and_congr_right fun _ => mem_slots_iff (.list plan.operations) (keyedItems_iff.mpr plan.distinct)

end Collected

/-! ## What is hidden -/

section Hidden

variable {members : List (String × Json N)} {content key : String}

theorem get_redactMembers_eq (members : List (String × Json N)) (key : String) :
    Dict.get (redactMembers members) key = (Dict.get members key).map fun item =>
      if (secretText key item).isSome then .text secretMarker else redact item := by
  induction members with
  | nil => rfl
  | cons member members ih =>
    obtain ⟨first, item⟩ := member
    by_cases same : first = key
    · subst same
      simp only [Dict.get, redactMembers, List.find?_cons, decide_true, Option.map_some]
    · simp only [Dict.get, redactMembers, List.find?_cons, decide_eq_false same] at ih ⊢
      exact ih

theorem exists_cons_append (place : List Step) (last : Step) : ∃ next rest, place ++ [last] = next :: rest :=
  List.exists_cons_of_ne_nil (List.append_ne_nil_of_right_ne_nil place (List.cons_ne_nil last []))

theorem valueAt_text (step : Step) (place : List Step) : valueAt (.text content : Json N) (step :: place) = none := by
  cases step <;> rfl

theorem valueAt_value (secret : key ∈ secretKeys) (place : List Step) :
    valueAt (.object [("@type", .text "Value"), ("secret", .text secretMarker)] : Json N)
        (place ++ [Step.member key]) ∈ [none, some (.text secretMarker)] := by
  have inside : ∀ name, (Dict.get [("@type", .text "Value"), ("secret", .text secretMarker)] name : Option (Json N))
      = if name = "@type" then some (.text "Value")
        else if name = "secret" then some (.text secretMarker) else none := by
    intro name
    by_cases type : "@type" = name
    · subst type
      rfl
    · by_cases own : "secret" = name
      · subst own
        rfl
      · simp [Dict.get, type, own, Ne.symm type, Ne.symm own]
  cases place with
  | nil =>
    have other : key ≠ "@type" := by
      rintro rfl
      exact absurd secret (by decide)
    rw [List.nil_append, valueAt, child, inside, if_neg other]
    split
    · exact List.mem_cons_of_mem _ List.mem_cons_self
    · exact List.mem_cons_self
  | cons step place =>
    obtain ⟨next, rest, more⟩ := exists_cons_append place (.member key)
    cases step with
    | item index => exact List.mem_cons_self
    | member name =>
      rw [List.cons_append, valueAt, child, inside, more]
      split
      · rw [Option.bind_some, valueAt_text]
        exact List.mem_cons_self
      · split
        · rw [Option.bind_some, valueAt_text]
          exact List.mem_cons_self
        · exact List.mem_cons_self

/-- **What is hidden**: where a string stands under a secret key, redaction leaves the marker, or nothing
where a `Value` around it is replaced. -/
theorem valueAt_redact {value : Json N} {place : List Step} (stands : Stands value place key content) :
    valueAt (redact value) (place ++ [Step.member key]) ∈ [none, some (.text secretMarker)] := by
  obtain ⟨secret, stands⟩ := stands
  induction place generalizing value with
  | nil =>
    cases value with
    | object members =>
      obtain ⟨item, found, same⟩ := Option.bind_eq_some_iff.mp stands
      obtain rfl := Option.some.inj same
      rw [child] at found
      rw [redact]
      split
      · exact valueAt_value secret []
      · have own : (secretText key (.text content : Json N)).isSome := secretText_isSome.mpr ⟨secret, content, rfl⟩
        rw [List.nil_append, valueAt, child, get_redactMembers_eq, found, Option.map_some, if_pos own]
        exact List.mem_cons_of_mem _ List.mem_cons_self
    | _ => cases stands
  | cons step place ih =>
    cases value with
    | list items =>
      cases step with
      | member name => cases stands
      | item index =>
        obtain ⟨item, found, stands⟩ := Option.bind_eq_some_iff.mp stands
        rw [child] at found
        rw [redact, redactItems_eq, List.cons_append, valueAt, child, List.getElem?_map, found, Option.map_some,
          Option.bind_some]
        exact ih stands
    | object members =>
      cases step with
      | item index => cases stands
      | member name =>
        obtain ⟨item, found, stands⟩ := Option.bind_eq_some_iff.mp stands
        rw [child] at found
        rw [redact]
        split
        · exact valueAt_value secret (.member name :: place)
        · rw [List.cons_append, valueAt, child, get_redactMembers_eq, found, Option.map_some, Option.bind_some]
          split
          · -- A string under a secret key holds nothing, so the place does not lead through it.
            next own =>
            obtain ⟨-, held, rfl⟩ := secretText_isSome.mp own
            obtain ⟨next, rest, more⟩ := exists_cons_append place (.member key)
            have stands : valueAt (.text held) (place ++ [Step.member key]) = some (.text content) := stands
            rw [more, valueAt_text] at stands
            cases stands
          · exact ih stands
    | _ => cases step <;> cases stands

end Hidden

/-- **Redaction leaks nothing.** Plans that are the same but for strings under secret keys show the same text;
the secrets listed are the strings under secret keys that are not empty; and each of these is hidden where it
stands. -/
theorem redaction_leaks_nothing (plan : Plan N) :
    (∀ other : Plan N, SameItems plan.operations other.operations →
      redacted plan.operations = redacted other.operations) ∧
    (∀ content, content ∈ secretStrings plan.operations ↔
      content ≠ "" ∧ ∃ place key, Stands (.list plan.operations) place key content) ∧
    ∀ place key content, Stands (.list plan.operations) place key content →
      valueAt (.list (redactItems plan.operations)) (place ++ [.member key]) = some (.text secretMarker) ∨
        valueAt (.list (redactItems plan.operations)) (place ++ [.member key]) = none := by
  refine ⟨fun other same => ?_, fun content => mem_secretStrings_iff plan, fun place key content stands => ?_⟩
  · exact (redacted_eq_iff plan other).mpr
      (alike_of_sameButSecrets (.list plan.operations) (.list other.operations) same)
  · rcases List.mem_cons.mp (valueAt_redact stands) with gone | marked
    · exact Or.inr gone
    · exact Or.inl (List.mem_singleton.mp marked)

end SuiteCloud.Mail.Cluster.Marker
