/-
**Plans: when a changed plan changes its marker.**

`marker` of `suite_cloud/mail/cluster/plan.py` names the file a node keeps once it applied a plan. It hashes
the redacted plan and a hash of its secret strings, so that a rotated password is applied. The secret
strings are those `secret_strings` lists: none empty, each at its first use, joined by a NUL.

* `redact`, `collectSecrets`, `markerText` — the text that is hashed.
* `Alike`, `slots` — two plans that differ in nothing but what is redacted; the strings under secret keys.
* `redact_eq_iff` — **what redaction tells apart**.
* `join_eq_iff` — when two lists of strings are joined to one text.
* `marker_changes_iff` — **exactly when two plans have different texts**.
* `rotated_password_kept` — a password rotated to one the plan holds already.
-/

import Mathlib.Logic.Equiv.Basic
import SuiteCloud.Library.JsonStyle
import SuiteCloud.Library.Text
import SuiteCloud.Library.Words

set_option linter.unusedSectionVars false

namespace SuiteCloud.Mail.Cluster.Marker

open SuiteCloud.Library Json

variable {N : Type} [Numeral N]

/-! ## The text that is hashed -/

/-- `SECRET_KEYS`. -/
def secretKeys : List String :=
  ["secret", "secretKey", "secretAccessKey", "apiKey", "authSecret", "sentinelSecret", "bearerToken"]

/-- `SECRET_MARKER`. -/
def secretMarker : String := "***"

/-- A string under a secret key. -/
def secretText (key : String) : Json N → Option String
  | .text content => if key ∈ secretKeys then some content else none
  | _ => none

mutual

/-- `_collect_secrets`, which passes over an empty string. -/
def collectSecrets : Json N → List String
  | .object members => collectMembers members
  | .list items => collectItems items
  | _ => []

def collectItems : List (Json N) → List String
  | [] => []
  | item :: rest => collectSecrets item ++ collectItems rest

def collectMembers : List (String × Json N) → List String
  | [] => []
  | (key, item) :: rest =>
      (match (secretText key item).filter (· ≠ "") with
        | some content => [content]
        | none => collectSecrets item) ++ collectMembers rest

end

/-- **`secret_strings`**: each at its first use. -/
def secretStrings (plan : List (Json N)) : List String := (collectSecrets (.list plan)).eraseDups

/-- An object `{"@type": "Value", "secret": ...}`, with whatever else it has. -/
def holdsSecret (members : List (String × Json N)) : Bool :=
  match Dict.get members "@type" with
  | some (.text content) => content = "Value" && members.any (·.1 = "secret")
  | _ => false

mutual

/-- `_redact`. -/
def redact : Json N → Json N
  | .object members =>
      if holdsSecret members then .object [("@type", .text "Value"), ("secret", .text secretMarker)]
      else .object (redactMembers members)
  | .list items => .list (redactItems items)
  | value => value

def redactItems : List (Json N) → List (Json N)
  | [] => []
  | item :: rest => redact item :: redactItems rest

def redactMembers : List (String × Json N) → List (String × Json N)
  | [] => []
  | (key, item) :: rest =>
      (key, if (secretText key item).isSome then .text secretMarker else redact item) :: redactMembers rest

end

/-- **`redacted`**: the plan for display. -/
def redacted (plan : List (Json N)) : List Char := indented.dumps (.list (redactItems plan))

/-- `"\0".join(strings)`. -/
def joined (strings : List String) : List Char :=
  [Char.ofNat 0].intercalate (strings.map String.toList)

/-- **The text `marker` hashes**: the redacted plan, and a hash of the secrets. -/
def markerText (sha256 : List Char → List Char) (plan : List (Json N)) : List Char :=
  redacted plan ++ '\n' :: sha256 (joined (secretStrings plan))

/-- `marker`, of a hash whose first twelve digits are taken. -/
def marker (sha1 sha256 : List Char → List Char) (plan : List (Json N)) : String :=
  ".suite-cloud-plan-" ++ String.ofList ((sha1 (markerText sha256 plan)).take 12)

/-- **A plan**: its operations; the keys of each dict are distinct. -/
structure Plan (N : Type) where
  operations : List (Json N)
  distinct : ∀ operation ∈ operations, keyed operation = true

/-! ## What a plan says -/

mutual

/-- **Alike but for what is redacted**: the strings under secret keys, and all an object holds that is a
`Value` with a secret. -/
def Alike : Json N → Json N → Prop
  | .list items, .list others => AlikeItems items others
  | .object members, .object others =>
      (holdsSecret members ∧ holdsSecret others) ∨ AlikeMembers members others
  | value, other => value = other

def AlikeItems : List (Json N) → List (Json N) → Prop
  | [], [] => True
  | item :: rest, other :: others => Alike item other ∧ AlikeItems rest others
  | _, _ => False

def AlikeMembers : List (String × Json N) → List (String × Json N) → Prop
  | [], [] => True
  | (key, item) :: rest, (key', other) :: others =>
      key = key' ∧ (((secretText key item).isSome ∧ (secretText key other).isSome) ∨ Alike item other) ∧
        AlikeMembers rest others
  | _, _ => False

end

mutual

/-- **The strings under secret keys**, in order; some may be empty or equal. -/
def slots : Json N → List String
  | .object members => slotsOfMembers members
  | .list items => slotsOfItems items
  | _ => []

def slotsOfItems : List (Json N) → List String
  | [] => []
  | item :: rest => slots item ++ slotsOfItems rest

def slotsOfMembers : List (String × Json N) → List String
  | [] => []
  | (key, item) :: rest =>
      (match secretText key item with
        | some content => [content]
        | none => slots item) ++ slotsOfMembers rest

end

/-- **What is left of the secrets**: those that are not empty, each at its first use, cut at its NULs. -/
def pieces (strings : List String) : List (List Char) :=
  (strings.filter (· ≠ "")).eraseDups.flatMap fun content => content.toList.splitOn (Char.ofNat 0)

/-! ## What redaction tells apart -/

section Redaction

variable {value other : Json N} {items others : List (Json N)} {members others' : List (String × Json N)}

theorem redactItems_eq_iff (tells : ∀ item ∈ items, ∀ other, redact item = redact other ↔ Alike item other)
    (others : List (Json N)) : redactItems items = redactItems others ↔ AlikeItems items others := by
  induction items generalizing others with
  | nil =>
    cases others with
    | nil => exact iff_of_true rfl trivial
    | cons other others => exact iff_of_false (List.cons_ne_nil _ _).symm id
  | cons item items ih =>
    obtain ⟨first, later⟩ := List.forall_mem_cons.mp tells
    cases others with
    | nil => exact iff_of_false (List.cons_ne_nil _ _) id
    | cons other others =>
      rw [redactItems, redactItems, List.cons.injEq, first, ih later]
      rfl

theorem redact_eq_leaf (leaf : isNested value = false) : redact other = value ↔ other = value := by
  cases other with
  | list items => exact iff_of_false (fun same => by cases same; cases leaf) fun same => by cases same; cases leaf
  | object members =>
    refine iff_of_false (fun same => ?_) fun same => by cases same; cases leaf
    rw [redact] at same
    split at same <;> cases same <;> cases leaf
  | _ => exact Iff.rfl

theorem alike_leaf (leaf : isNested value = false) : Alike value other ↔ other = value := by
  cases value with
  | list => cases leaf
  | object => cases leaf
  | _ => exact eq_comm

theorem secretText_isSome {key : String} :
    (secretText key value).isSome ↔ key ∈ secretKeys ∧ ∃ content, value = .text content := by
  cases value with
  | text content =>
    rw [secretText]
    split
    · next member => exact iff_of_true rfl ⟨member, content, rfl⟩
    · next absent => exact iff_of_false Bool.false_ne_true fun both => absent both.1
  | _ => exact iff_of_false Bool.false_ne_true fun ⟨_, _, same⟩ => by cases same

theorem redactMembers_eq_iff
    (tells : ∀ member ∈ members, ∀ other, redact member.2 = redact other ↔ Alike member.2 other)
    (others : List (String × Json N)) :
    redactMembers members = redactMembers others ↔ AlikeMembers members others := by
  induction members generalizing others with
  | nil =>
    cases others with
    | nil => exact iff_of_true rfl trivial
    | cons other others => exact iff_of_false (List.cons_ne_nil _ _).symm id
  | cons member members ih =>
    obtain ⟨key, item⟩ := member
    obtain ⟨first, later⟩ := List.forall_mem_cons.mp tells
    cases others with
    | nil => exact iff_of_false (List.cons_ne_nil _ _) id
    | cons other others =>
      obtain ⟨key', other⟩ := other
      rw [redactMembers, redactMembers, List.cons.injEq, Prod.mk.injEq, ih later, AlikeMembers, and_assoc]
      refine and_congr_right fun same => and_congr_left fun _ => ?_
      subst same
      by_cases here : (secretText key item).isSome
      · rw [if_pos here]
        by_cases there : (secretText key other).isSome
        · rw [if_pos there]
          exact iff_of_true rfl (Or.inl ⟨here, there⟩)
        · -- A text under a secret key is alike to no other value, and no other value is redacted to one.
          obtain ⟨secret, content, rfl⟩ := secretText_isSome.mp here
          have plain : ∀ content, other ≠ .text content := fun content same =>
            there (secretText_isSome.mpr ⟨secret, content, same⟩)
          rw [if_neg there]
          refine iff_of_false (fun same => plain _ ((redact_eq_leaf rfl).mp same.symm)) ?_
          rintro (both | alike)
          · exact there both.2
          · exact plain _ ((alike_leaf rfl).mp alike)
      · rw [if_neg here]
        by_cases there : (secretText key other).isSome
        · obtain ⟨secret, content, rfl⟩ := secretText_isSome.mp there
          have plain : ∀ content, item ≠ .text content := fun content same =>
            here (secretText_isSome.mpr ⟨secret, content, same⟩)
          rw [if_pos there]
          refine iff_of_false (fun same => plain _ ((redact_eq_leaf rfl).mp same)) ?_
          rintro (both | alike)
          · exact here both.1
          · exact plain _ ((redact_eq_leaf rfl).mp ((first _).mpr alike))
        · rw [if_neg there, first, or_iff_right fun both => here both.1]

theorem get_redactMembers {key : String} (plain : key ∉ secretKeys) (members : List (String × Json N)) :
    Dict.get (redactMembers members) key = (Dict.get members key).map redact := by
  induction members with
  | nil => rfl
  | cons member members ih =>
    obtain ⟨first, item⟩ := member
    by_cases same : first = key
    · subst same
      have open' : ¬ (secretText first item).isSome := fun secret => plain (secretText_isSome.mp secret).1
      simp only [Dict.get, redactMembers, List.find?_cons, decide_true, Option.map_some, if_neg open']
    · simp only [Dict.get, redactMembers, List.find?_cons, decide_eq_false same] at ih ⊢
      exact ih

theorem keys_redactMembers (members : List (String × Json N)) :
    (redactMembers members).map Prod.fst = members.map Prod.fst := by
  induction members with
  | nil => rfl
  | cons member members ih =>
    obtain ⟨key, item⟩ := member
    rw [redactMembers, List.map_cons, List.map_cons, ih]

theorem holdsSecret_redactMembers (members : List (String × Json N)) :
    holdsSecret (redactMembers members) = holdsSecret members := by
  have keys : (redactMembers members).any (·.1 = "secret") = members.any (·.1 = "secret") := by
    have both := congrArg (fun keys => keys.any (· = "secret")) (keys_redactMembers members)
    rw [List.any_map, List.any_map] at both
    exact both
  unfold holdsSecret
  rw [get_redactMembers (by decide), keys]
  cases type : Dict.get members "@type" with
  | none => rfl
  | some value =>
    cases value with
    | object members =>
      rw [Option.map_some, redact]
      cases holdsSecret members <;> rfl
    | _ => rfl

theorem redact_eq_iff (value other : Json N) : redact value = redact other ↔ Alike value other := by
  induction value using ind generalizing other with
  | list items ih =>
    cases other with
    | list others =>
      rw [redact, redact, Json.list.injEq, redactItems_eq_iff ih]
      rfl
    | object members =>
      refine iff_of_false (fun same => ?_) nofun
      rw [redact, redact] at same
      split at same <;> cases same
    | _ => exact iff_of_false nofun nofun
  | object members ih =>
    cases other with
    | object others =>
      have apart := redactMembers_eq_iff ih others
      have together : AlikeMembers members others → holdsSecret members = holdsSecret others := fun alike => by
        rw [← holdsSecret_redactMembers, apart.mpr alike, holdsSecret_redactMembers]
      rw [redact, redact, Alike]
      by_cases here : holdsSecret members
      · by_cases there : holdsSecret others
        · rw [if_pos here, if_pos there]
          exact iff_of_true rfl (Or.inl ⟨here, there⟩)
        · rw [if_pos here, if_neg there, Json.object.injEq]
          refine iff_of_false (fun same => there ?_) ?_
          · rw [← holdsSecret_redactMembers, ← same]
            rfl
          · rintro (both | alike)
            · exact there both.2
            · exact there (together alike ▸ here)
      · by_cases there : holdsSecret others
        · rw [if_neg here, if_pos there, Json.object.injEq]
          refine iff_of_false (fun same => here ?_) ?_
          · rw [← holdsSecret_redactMembers, same]
            rfl
          · rintro (both | alike)
            · exact here both.1
            · exact here (together alike ▸ there)
        · rw [if_neg here, if_neg there, Json.object.injEq, apart, or_iff_right fun both => here both.1]
    | _ =>
      refine iff_of_false (fun same => ?_) nofun
      rw [redact] at same
      split at same <;> cases same
  | _ => exact (eq_comm.trans (redact_eq_leaf rfl)).trans (alike_leaf rfl).symm

end Redaction

/-! ## What a join tells apart -/

section Joins

variable {strings others : List String}

/-- A string, cut at its NULs. -/
def cut (content : String) : List (List Char) := content.toList.splitOn (Char.ofNat 0)

theorem not_mem_of_mem_splitOn {α : Type*} [DecidableEq α] {separator : α} {list piece : List α}
    (member : piece ∈ list.splitOn separator) : separator ∉ piece := by
  induction list generalizing piece with
  | nil =>
    rw [List.splitOn_nil, List.mem_singleton] at member
    subst member
    exact List.not_mem_nil
  | cons first rest ih =>
    rw [List.splitOn_cons_eq_if_modifyHead] at member
    split at member
    · rcases List.mem_cons.mp member with rfl | later
      · exact List.not_mem_nil
      · exact ih later
    · next other =>
      obtain ⟨head, tail, pieces⟩ := List.exists_cons_of_ne_nil (List.splitOn_ne_nil separator rest)
      rw [pieces] at member ih
      rcases List.mem_cons.mp member with rfl | later
      · rintro among
        rcases List.mem_cons.mp among with rfl | among
        · exact other (beq_self_eq_true _)
        · exact ih List.mem_cons_self among
      · exact ih (List.mem_cons_of_mem _ later)

theorem cut_ne_nil (content : String) : cut content ≠ [] := List.splitOn_ne_nil _ _

theorem joined_eq (strings : List String) : joined strings = [Char.ofNat 0].intercalate (strings.flatMap cut) := by
  induction strings with
  | nil => rfl
  | cons content rest ih =>
    unfold joined at ih ⊢
    cases rest with
    | nil =>
      rw [List.flatMap_cons, List.flatMap_nil, List.append_nil, cut, List.intercalate_splitOn]
      exact List.intercalate_singleton
    | cons next rest =>
      have more : (next :: rest).flatMap cut ≠ [] := fun none =>
        cut_ne_nil next (List.flatMap_eq_nil_iff.mp none next List.mem_cons_self)
      rw [List.flatMap_cons, intercalate_append (cut_ne_nil content) more, ← ih, cut, List.intercalate_splitOn,
        List.map_cons, List.map_cons, List.intercalate_cons_cons]

theorem splitOn_joined (some : strings ≠ []) : (joined strings).splitOn (Char.ofNat 0) = strings.flatMap cut := by
  rw [joined_eq, List.splitOn_intercalate]
  · intro piece member
    obtain ⟨content, -, among⟩ := List.mem_flatMap.mp member
    exact not_mem_of_mem_splitOn among
  · intro none
    obtain ⟨content, rest, rfl⟩ := List.exists_cons_of_ne_nil some
    exact cut_ne_nil content (List.flatMap_eq_nil_iff.mp none content List.mem_cons_self)

theorem joined_eq_iff (written : ∀ content ∈ strings, content ≠ "") (written' : ∀ content ∈ others, content ≠ "") :
    joined strings = joined others ↔ strings.flatMap cut = others.flatMap cut := by
  have some : ∀ strings : List String, (∀ content ∈ strings, content ≠ "") → joined strings = [] → strings = [] := by
    intro strings written empty
    cases strings with
    | nil => rfl
    | cons content rest =>
      have first : content.toList ≠ [] := fun none =>
        written content List.mem_cons_self (String.toList_inj.mp none)
      unfold joined at empty
      rw [List.map_cons] at empty
      cases rest with
      | nil => exact absurd (List.intercalate_singleton.symm.trans empty) first
      | cons next rest =>
        rw [List.map_cons, List.intercalate_cons_cons] at empty
        exact absurd (List.append_eq_nil_iff.mp (List.append_eq_nil_iff.mp empty).1).1 first
  constructor
  · intro same
    by_cases none : strings = []
    · subst none
      rw [some others written' same.symm]
    · have none' : others ≠ [] := by
        rintro rfl
        exact none (some strings written same)
      rw [← splitOn_joined none, ← splitOn_joined none', same]
  · intro same
    rw [joined_eq, joined_eq, same]

end Joins

/-! ## The secrets of a plan -/

section Secrets

variable {items : List (Json N)} {members : List (String × Json N)}

theorem collectItems_eq (collects : ∀ item ∈ items, collectSecrets item = (slots item).filter (· ≠ "")) :
    collectItems items = (slotsOfItems items).filter (· ≠ "") := by
  induction items with
  | nil => rfl
  | cons item items ih =>
    obtain ⟨first, later⟩ := List.forall_mem_cons.mp collects
    rw [collectItems, slotsOfItems, List.filter_append, first, ih later]

theorem collectMembers_eq
    (collects : ∀ member ∈ members, collectSecrets member.2 = (slots member.2).filter (· ≠ "")) :
    collectMembers members = (slotsOfMembers members).filter (· ≠ "") := by
  induction members with
  | nil => rfl
  | cons member members ih =>
    obtain ⟨key, item⟩ := member
    obtain ⟨first, later⟩ := List.forall_mem_cons.mp collects
    rw [collectMembers, slotsOfMembers, List.filter_append, ih later]
    congr 1
    cases secret : secretText key item with
    | none => exact first
    | some content =>
      by_cases empty : content = ""
      · -- An empty string is passed over, and a text holds no secrets.
        obtain ⟨-, content', rfl⟩ := secretText_isSome.mp (Option.isSome_iff_exists.mpr ⟨_, secret⟩)
        subst empty
        rfl
      · have kept : (some content).filter (· ≠ "") = some content := if_pos (decide_eq_true empty)
        rw [kept]
        exact (List.filter_eq_self.mpr fun other member =>
          List.mem_singleton.mp member ▸ decide_eq_true empty).symm

theorem collectSecrets_eq (value : Json N) : collectSecrets value = (slots value).filter (· ≠ "") := by
  induction value using ind with
  | list items ih => exact collectItems_eq ih
  | object members ih => exact collectMembers_eq ih
  | _ => rfl

theorem secretStrings_eq (plan : List (Json N)) :
    secretStrings plan = ((slotsOfItems plan).filter (· ≠ "")).eraseDups :=
  congrArg List.eraseDups (collectSecrets_eq (.list plan))

theorem redactItems_eq (items : List (Json N)) : redactItems items = items.map redact := by
  induction items with
  | nil => rfl
  | cons item items ih => rw [redactItems, List.map_cons, ih]

theorem keyed_redactMembers (values : ∀ member ∈ members, keyed (redact member.2) = true) :
    keyedMembers (redactMembers members) = true := by
  induction members with
  | nil => rfl
  | cons member members ih =>
    obtain ⟨key, item⟩ := member
    obtain ⟨first, later⟩ := List.forall_mem_cons.mp values
    rw [redactMembers, keyedMembers, ih later, Bool.and_true]
    split
    · rfl
    · exact first

theorem keyed_redact (value : Json N) (distinct : keyed value = true) : keyed (redact value) = true := by
  induction value using ind with
  | list items ih =>
    rw [redact, redactItems_eq]
    refine keyedItems_iff.mpr fun item member => ?_
    obtain ⟨before, among, rfl⟩ := List.mem_map.mp member
    exact ih before among (keyedItems_iff.mp distinct before among)
  | object members ih =>
    obtain ⟨keys, values⟩ := (Bool.and_eq_true _ _).mp distinct
    rw [redact]
    split
    · rfl
    · rw [keyed, keys_redactMembers, keys, Bool.true_and]
      exact keyed_redactMembers fun member among => ih member among (keyedMembers_iff.mp values member among)
  | _ => exact distinct

theorem redacted_eq_iff (first second : Plan N) :
    redacted first.operations = redacted second.operations ↔ AlikeItems first.operations second.operations := by
  have keyed' : ∀ plan : Plan N, keyed (redact (.list plan.operations)) = true := fun plan =>
    keyed_redact _ (keyedItems_iff.mpr plan.distinct)
  refine Iff.trans ⟨fun same => ?_, fun same => ?_⟩
    (redact_eq_iff (.list first.operations) (.list second.operations))
  · exact dumps_injective (keyed' first) (keyed' second) same
  · exact congrArg indented.dumps same

theorem joined_secretStrings_eq_iff (first second : List (Json N)) :
    joined (secretStrings first) = joined (secretStrings second) ↔
      pieces (slotsOfItems first) = pieces (slotsOfItems second) := by
  have written : ∀ plan : List (Json N), ∀ content ∈ secretStrings plan, content ≠ "" := by
    intro plan content member
    rw [secretStrings_eq, List.mem_eraseDups] at member
    exact of_decide_eq_true (List.mem_filter.mp member).2
  rw [joined_eq_iff (written first) (written second), secretStrings_eq, secretStrings_eq]
  rfl

end Secrets

/-! ## When the marker changes -/

/-- **When the marker changes.** The texts of two plans differ exactly when the plans differ outside of
what is redacted, or their secrets differ in what is left once empty ones and later uses are passed over
and each is cut at its NULs. -/
theorem marker_changes_iff (sha256 : List Char → List Char) (collisionFree : Function.Injective sha256)
    (oneLine : ∀ text, '\n' ∉ sha256 text) (first second : Plan N) :
    markerText sha256 first.operations ≠ markerText sha256 second.operations ↔
      ¬ AlikeItems first.operations second.operations ∨
        pieces (slotsOfItems first.operations) ≠ pieces (slotsOfItems second.operations) := by
  rw [← redacted_eq_iff, ne_eq, ne_eq, ← joined_secretStrings_eq_iff, ← not_and_or, not_iff_not]
  constructor
  · intro same
    obtain ⟨visible, hashes⟩ := split_last (oneLine _) (oneLine _) same
    exact ⟨visible, collisionFree hashes⟩
  · rintro ⟨visible, secrets⟩
    rw [markerText, markerText, visible, secrets]

/-- A route over a relay, with its password. -/
def sampleRelay (password : String) : Json Empty :=
  .object [("@type", .text "Relay"), ("authSecret", .object [("@type", .text "Value"), ("secret", .text password)])]

/-- A plan of three relays. -/
def samplePlan (third : String) : Plan Empty where
  operations := [.object [("@type", .text "create"), ("object", .text "MtaRoute"),
    ("value", .object [("r1", sampleRelay "a"), ("r2", sampleRelay "b"), ("r3", sampleRelay third)])]]
  distinct operation member := by
    rw [List.mem_singleton.mp member]
    rfl

/-- A text, escaped. -/
def sampleEscape (text : List Char) : List Char := text.flatMap asciiEscape

/-- `sha256(text).hexdigest()`, of the secrets below; of other texts, a text of their own. -/
def sampleHash (text : List Char) : List Char :=
  Equiv.swap (sampleEscape ['a', Char.ofNat 0, 'b', Char.ofNat 0, 'c'])
    "8badde10c760e9b702defb4b5e225de79c515b1d2a5cfb000e140f3c6fbb5629".toList
    (Equiv.swap (sampleEscape ['a', Char.ofNat 0, 'b'])
      "59b271ae1bbcb1d31d41929817f4b16fb439eb4f31520b5ad1d5ce98920a7138".toList (sampleEscape text))

theorem sampleEscape_injective : Function.Injective sampleEscape := by
  intro text other same
  have reads : ∀ text, (sampleEscape text).foldlM Reading.next (.of []) = some (.of text) :=
    fun text => @reads_escapes indented [] text
  have both := (reads text).symm.trans (same ▸ reads other)
  exact congrArg Reading.read (Option.some.inj both)

theorem newLine_not_mem_asciiEscape (c : Char) : '\n' ∉ asciiEscape c := by
  intro member
  rcases mem_asciiEscape member with ⟨rfl, printed⟩ | mark
  · exact absurd printed (by decide)
  · exact absurd mark (by decide)

theorem newLine_not_mem_sampleEscape (text : List Char) : '\n' ∉ sampleEscape text := by
  intro member
  obtain ⟨c, -, among⟩ := List.mem_flatMap.mp member
  exact newLine_not_mem_asciiEscape c among

/-- A password rotated to a new one changes the text. -/
theorem marker_changes_iff_rotated :
    markerText sampleHash (samplePlan "a").operations ≠ markerText sampleHash (samplePlan "c").operations := by
  refine (marker_changes_iff sampleHash ?_ ?_ (samplePlan "a") (samplePlan "c")).mpr (Or.inr ?_)
  · exact (Equiv.injective _).comp ((Equiv.injective _).comp sampleEscape_injective)
  · intro text
    unfold sampleHash
    rw [Equiv.swap_apply_def, Equiv.swap_apply_def]
    split_ifs
    all_goals first | exact newLine_not_mem_sampleEscape _ | decide
  · decide

/-- **A password rotated to one the plan holds already** leaves the text as it is: the third relay's, from
the first one's to the second one's. -/
theorem rotated_password_kept :
    slotsOfItems (samplePlan "a").operations = ["a", "b", "a"] ∧
      slotsOfItems (samplePlan "b").operations = ["a", "b", "b"] ∧
      ∀ sha256, markerText sha256 (samplePlan "a").operations = markerText sha256 (samplePlan "b").operations := by
  refine ⟨by decide, by decide, fun sha256 => ?_⟩
  have visible : redacted (samplePlan "a").operations = redacted (samplePlan "b").operations :=
    congrArg (fun items => indented.dumps (.list items)) rfl
  have secrets : secretStrings (samplePlan "a").operations = secretStrings (samplePlan "b").operations := by decide
  rw [markerText, markerText, visible, secrets]

end SuiteCloud.Mail.Cluster.Marker
