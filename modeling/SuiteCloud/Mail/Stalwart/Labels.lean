/-
**The labels of a plan.**

`assert_unique_labels` of `suite_cloud/mail/cluster/plan.py`, and what `PlanApplier._resolve` makes of the
references of a plan: each stands for the id that the operation of its label gave.

* `assertUniqueLabels`; `assertUniqueLabels_iff` — it passes where no label is used twice.
* `KnownFrom` — each reference is to a label of an operation before; `knownFrom_append`.
* `labels_applyPlan` — the labels an apply knows are those of the operations it has done, and keep their ids.
* `WellFormed` — **a plan whose labels are unique and known**, so that no reference raises or is bound anew;
  `wellFormed_iff`.
* `Part` — an operation with the references it is written with and the texts that are filled into it;
  `knownFrom_iff` — its references are known where both are.
-/

import SuiteCloud.Library.Text
import SuiteCloud.Mail.Stalwart.Plan

namespace SuiteCloud.Mail.Stalwart

open SuiteCloud.Library

/-! ### Labels and references -/

/-- The labels an operation defines. -/
def Operation.labels : Operation → List String
  | .upsert _ _ value => value.map Prod.fst
  | .create _ _ value => value.map Prod.fst
  | _ => []

/-- The labels an operation refers to. -/
def Operation.references : Operation → List String
  | .upsert _ _ value => value.flatMap fun entry => Value.referencesMembers entry.2
  | .create _ _ value => value.flatMap fun entry => Value.referencesMembers entry.2
  | .update _ id value => Value.referencesMembers value ++ if id = "" then [] else (labelOf id).toList
  | .destroy _ value => value.references
  | .unsupported _ => []

/-- The labels of a plan, in order. -/
def planLabels (plan : List Operation) : List String := plan.flatMap Operation.labels

/-- The loop of `assert_unique_labels` over the labels; `false` where it raises. -/
def unseen : List String → List String → Bool
  | _, [] => true
  | seen, label :: labels => decide (label ∉ seen) && unseen (seen ++ [label]) labels

/-- **`assert_unique_labels`.** -/
def assertUniqueLabels (plan : List Operation) : Bool := unseen [] (planLabels plan)

/-- **Each reference is to a label of an operation before.** -/
def KnownFrom : List String → List Operation → Prop
  | _, [] => True
  | known, operation :: rest =>
      (∀ label ∈ operation.references, label ∈ known) ∧ KnownFrom (known ++ operation.labels) rest

/-- `_resolve` raises at nothing of an operation. -/
def Operation.Resolves (ids : Ids) : Operation → Prop
  | .upsert _ _ value => ∀ entry ∈ value, Value.resolveMembers ids entry.2 ≠ none
  | .create _ _ value => ∀ entry ∈ value, Value.resolveMembers ids entry.2 ≠ none
  | .update _ id value => Value.resolveMembers ids value ≠ none ∧ (id = "" ∨ resolveText ids id ≠ none)
  | .destroy _ value => value.resolve ids ≠ none
  | .unsupported _ => True

/-- The ids are those of a run and those it comes to in the midst of an operation. -/
def Run.KnownBy (run : Run) (ids : Ids) : Prop := ∀ label, run.labels label ≠ none → ids label ≠ none

/-- **A well-formed plan**: no label is used twice and each reference is to a label of an operation before;
so `_resolve` raises at nothing, and a label keeps the id of the object that its own operation found or
made. -/
structure WellFormed (plan : List Operation) : Prop where
  unique : assertUniqueLabels plan = true
  known : KnownFrom [] plan
  resolves : ∀ (server : Server) (content : Content) (before : List Operation) (operation : Operation)
    (after : List Operation) (run : Run), plan = before ++ operation :: after →
      applyPlan server (Run.start content) before = .ok run →
        ∀ ids, run.KnownBy ids → operation.Resolves ids
  kept : ∀ (server : Server) (before more after : List Operation) (label : String) (run run' : Run),
    plan = before ++ more ++ after → label ∈ planLabels before →
      applyPlan server run more = .ok run' → run'.labels label = run.labels label

section Labels

variable {server : Server} {run run' : Run} {type label : String} {matchOn : List String}
  {existing : List Entry} {known labels : List String} {plan more : List Operation} {ids : Ids}

theorem unseen_iff {seen : List String} :
    unseen seen labels = true ↔ labels.Nodup ∧ ∀ label ∈ labels, label ∉ seen := by
  induction labels generalizing seen with
  | nil => exact iff_of_true rfl ⟨List.nodup_nil, fun _ absent => absurd absent List.not_mem_nil⟩
  | cons first rest ih =>
    rw [unseen, Bool.and_eq_true, decide_eq_true_iff, ih, List.nodup_cons, List.forall_mem_cons]
    constructor
    · rintro ⟨new, distinct, others⟩
      refine ⟨⟨fun again => ?_, distinct⟩, new, fun label there before => ?_⟩
      · exact others first again (List.mem_append_right _ (List.mem_singleton_self first))
      · exact others label there (List.mem_append_left _ before)
    · rintro ⟨⟨once, distinct⟩, new, others⟩
      refine ⟨new, distinct, fun label there before => ?_⟩
      rcases List.mem_append.mp before with before | same
      · exact others label there before
      · exact once (List.mem_singleton.mp same ▸ there)

theorem assertUniqueLabels_iff : assertUniqueLabels plan = true ↔ (planLabels plan).Nodup := by
  rw [assertUniqueLabels, unseen_iff]
  exact and_iff_left fun _ _ => List.not_mem_nil

theorem planLabels_append : planLabels (plan ++ more) = planLabels plan ++ planLabels more :=
  List.flatMap_append

theorem knownFrom_append : KnownFrom known (plan ++ more) ↔
    KnownFrom known plan ∧ KnownFrom (known ++ planLabels plan) more := by
  induction plan generalizing known with
  | nil =>
    rw [List.nil_append, planLabels, List.flatMap_nil, List.append_nil]
    exact ⟨fun rest => ⟨trivial, rest⟩, fun both => both.2⟩
  | cons operation rest ih =>
    rw [List.cons_append, KnownFrom, KnownFrom, ih, and_assoc, planLabels, planLabels, List.flatMap_cons,
      List.append_assoc]

/-! ### The labels of an apply -/

theorem labels_upsertValue {value : Members} {existing' : List Entry}
    (done : upsertValue server type matchOn existing run label value = .ok (existing', run')) :
    run'.labels label ≠ none ∧ ∀ other, other ≠ label → run'.labels other = run.labels other := by
  obtain ⟨members, -, step⟩ := upsertValue_cases done
  obtain ⟨id, -, ids, -, -⟩ := step.logged
  simp only [Run.labels, ids, Dict.get_set]
  refine ⟨?_, fun other differs => if_neg differs⟩
  rw [if_true]
  exact Option.some_ne_none id

theorem labels_upsertAll {values : List (String × Members)}
    (done : upsertAll server type matchOn existing run values = .ok run') :
    (∀ label ∈ values.map Prod.fst, run'.labels label ≠ none) ∧
      (∀ label, run.labels label ≠ none → run'.labels label ≠ none) ∧
      ∀ label ∉ values.map Prod.fst, run'.labels label = run.labels label := by
  induction values generalizing existing run with
  | nil =>
    obtain rfl := Except.ok.inj done
    exact ⟨fun _ absent => absurd absent List.not_mem_nil, fun _ there => there, fun _ _ => rfl⟩
  | cons entry rest ih =>
    obtain ⟨name, value⟩ := entry
    obtain ⟨existing₁, run₁, first, done⟩ := upsertAll_cons done
    obtain ⟨given, others⟩ := labels_upsertValue first
    obtain ⟨all, grows, kept⟩ := ih done
    have still : ∀ label, run.labels label ≠ none → run₁.labels label ≠ none := by
      intro label there
      by_cases same : label = name
      · exact same ▸ given
      · rwa [others label same]
    refine ⟨fun label there => ?_, fun label there => grows label (still label there), fun label absent => ?_⟩
    · rcases List.mem_cons.mp there with rfl | there
      · exact grows _ given
      · exact all label there
    · rw [List.map_cons, List.mem_cons, not_or] at absent
      rw [kept label absent.2, others label absent.1]

theorem labels_deleteAll (type : String) (ids : List String) (run : Run) :
    (deleteAll type run ids).labels = run.labels := by
  induction ids generalizing run with
  | nil => rfl
  | cons id rest ih => exact ih _

theorem labels_applyOperation {operation : Operation}
    (done : applyOperation server run operation = .ok run') :
    (∀ label ∈ operation.labels, run'.labels label ≠ none) ∧
      (∀ label, run.labels label ≠ none → run'.labels label ≠ none) ∧
      ∀ label ∉ operation.labels, run'.labels label = run.labels label := by
  cases operation with
  | upsert type matchOn value => exact labels_upsertAll done
  | create type matchOn value => exact labels_upsertAll done
  | update type id value =>
    obtain ⟨target, members, report, written, -⟩ := applyUpdate_cases done
    obtain ⟨-, -, rfl⟩ := writeObject_cases written
    exact ⟨fun _ absent => absurd absent List.not_mem_nil, fun _ there => there, fun _ _ => rfl⟩
  | destroy type value =>
    rw [applyOperation, applyDestroy] at done
    split at done
    · cases done
    · obtain rfl := Except.ok.inj done
      rw [labels_deleteAll]
      exact ⟨fun _ absent => absurd absent List.not_mem_nil, fun _ there => there, fun _ _ => rfl⟩
  | unsupported kind => cases done

/-- **The labels an apply knows**: those of the operations it has done and those it knew; and the labels of
no such operation keep their ids. -/
theorem labels_applyPlan (done : applyPlan server run plan = .ok run') :
    (∀ label ∈ planLabels plan, run'.labels label ≠ none) ∧
      (∀ label, run.labels label ≠ none → run'.labels label ≠ none) ∧
      ∀ label ∉ planLabels plan, run'.labels label = run.labels label := by
  induction plan generalizing run with
  | nil =>
    obtain rfl := Except.ok.inj done
    exact ⟨fun _ absent => absurd absent List.not_mem_nil, fun _ there => there, fun _ _ => rfl⟩
  | cons operation rest ih =>
    obtain ⟨next, first, done⟩ := applyPlan_cons done
    obtain ⟨given, grows, kept⟩ := labels_applyOperation first
    obtain ⟨all, grows', kept'⟩ := ih done
    refine ⟨fun label there => ?_, fun label there => grows' label (grows label there), fun label absent => ?_⟩
    · rw [planLabels, List.flatMap_cons] at there
      rcases List.mem_append.mp there with there | there
      · exact grows' label (given label there)
      · exact all label there
    · rw [planLabels, List.flatMap_cons, List.mem_append, not_or] at absent
      rw [kept' label absent.2, kept label absent.1]

theorem resolves_of_known {operation : Operation} (known : ∀ label ∈ operation.references, ids label ≠ none) :
    operation.Resolves ids := by
  have members : ∀ value : Members, (∀ label ∈ Value.referencesMembers value, ids label ≠ none) →
      Value.resolveMembers ids value ≠ none := by
    intro value known raises
    obtain ⟨label, there, absent⟩ :=
      (resolveMembers_eq_none fun member _ => resolve_eq_none_iff member.2).mp raises
    exact known label there absent
  cases operation with
  | upsert type matchOn value =>
    exact fun entry there => members entry.2 fun label refers =>
      known label (List.mem_flatMap.mpr ⟨entry, there, refers⟩)
  | create type matchOn value =>
    exact fun entry there => members entry.2 fun label refers =>
      known label (List.mem_flatMap.mpr ⟨entry, there, refers⟩)
  | update type id value =>
    refine ⟨members value fun label refers => known label (List.mem_append_left _ refers), ?_⟩
    by_cases given : id = ""
    · exact Or.inl given
    · refine Or.inr fun raises => ?_
      obtain ⟨label, there, absent⟩ := resolveText_eq_none.mp raises
      refine known label (List.mem_append_right _ ?_) absent
      rwa [if_neg given]
  | destroy type value =>
    intro raises
    obtain ⟨label, there, absent⟩ := (resolve_eq_none_iff value).mp raises
    exact known label there absent
  | unsupported kind => trivial

/-- **Unique labels and known references make a plan well formed.** -/
theorem wellFormed_iff : WellFormed plan ↔ (planLabels plan).Nodup ∧ KnownFrom [] plan := by
  refine ⟨fun well => ⟨assertUniqueLabels_iff.mp well.unique, well.known⟩, fun ⟨distinct, known⟩ => ?_⟩
  refine ⟨assertUniqueLabels_iff.mpr distinct, known, ?_, ?_⟩
  · rintro server content before operation after run rfl done ids knows
    have mine := (knownFrom_append.mp known).2.1
    refine resolves_of_known fun label refers => knows label ?_
    exact (labels_applyPlan done).1 label (mine label refers)
  · rintro server before more after label run run' rfl there done
    refine (labels_applyPlan done).2.2 label fun again => ?_
    rw [planLabels_append, planLabels_append, List.append_assoc] at distinct
    exact (List.nodup_append.mp distinct).2.2 label there label (List.mem_append_left _ again) rfl

end Labels

/-! ### Texts that are filled in -/

theorem labelOf_ofList {c : Char} {rest : List Char} (differs : (c == '#') = false) :
    labelOf (String.ofList (c :: rest)) = none := by
  rw [labelOf, String.toList_ofList]
  split
  · rename_i label same
    exact absurd (List.cons.inj same).1 (ne_of_beq_false differs)
  · rfl

theorem labelOf_ofList_append {c : Char} {rest : List Char} (text : String) (differs : (c == '#') = false) :
    labelOf (String.ofList (c :: rest) ++ text) = none := by
  have chars : String.ofList (c :: rest) ++ text = String.ofList (c :: (rest ++ text.toList)) :=
    String.toList_injective (by simp)
  rw [chars]
  exact labelOf_ofList differs

theorem refers_plain {text label : String} (plain : labelOf text = none) : ¬ labelOf text = some label := by
  rw [plain]
  exact Option.some_ne_none label ∘ Eq.symm

theorem labelOf_hash {rest : List Char} : labelOf (String.ofList ('#' :: rest)) = some (String.ofList rest) := by
  rw [labelOf, String.toList_ofList]
  rfl

theorem labelOf_hash_append (label : String) : labelOf ("#" ++ label) = some label := by
  have chars : "#" ++ label = String.ofList ('#' :: label.toList) := String.toList_injective (by simp)
  rw [chars, labelOf_hash, String.ofList_toList]

theorem labelOf_toString (n : ℕ) : labelOf (toString n) = none := by
  rw [labelOf]
  split
  · rename_i label same
    have digit : '#'.isDigit = true := decimal_digits (n := n) (same ▸ List.mem_cons_self)
    exact absurd digit (by decide)
  · rfl

/-- An operation with what it refers to as it is written, and the texts that are filled into it. -/
structure Part where
  operation : Operation
  own : List String
  texts : List String

/-- The operation refers to nothing else. -/
def Part.Carries (part : Part) : Prop :=
  ∀ label, label ∈ part.operation.references ↔ label ∈ part.own ∨ ∃ text ∈ part.texts, labelOf text = some label

/-- What the operations are written to refer to is a label of an operation before. -/
def OwnFrom : List String → List Part → Prop
  | _, [] => True
  | known, part :: rest =>
      (∀ label ∈ part.own, label ∈ known) ∧ OwnFrom (known ++ part.operation.labels) rest

/-- **Each text that begins with `#` names a label of an operation before.** -/
def SuppliedFrom : List String → List Part → Prop
  | _, [] => True
  | known, part :: rest =>
      (∀ text ∈ part.texts, ∀ label ∈ labelOf text, label ∈ known) ∧
        SuppliedFrom (known ++ part.operation.labels) rest

section Parts

variable {known more : List String} {part : Part} {parts first middle last : List Part}

/-- **The references are known where those that are written and those that are filled in are.** -/
theorem knownFrom_iff (carries : ∀ part ∈ parts, part.Carries) :
    KnownFrom known (parts.map Part.operation) ↔ OwnFrom known parts ∧ SuppliedFrom known parts := by
  induction parts generalizing known with
  | nil => exact iff_of_true trivial ⟨trivial, trivial⟩
  | cons part rest ih =>
    obtain ⟨mine, others⟩ := List.forall_mem_cons.mp carries
    have here : (∀ label ∈ part.operation.references, label ∈ known) ↔
        (∀ label ∈ part.own, label ∈ known) ∧ ∀ text ∈ part.texts, ∀ label ∈ labelOf text, label ∈ known := by
      constructor
      · intro all
        refine ⟨fun label own => all label ((mine label).mpr (Or.inl own)), fun text filled label refers => ?_⟩
        exact all label ((mine label).mpr (Or.inr ⟨text, filled, refers⟩))
      · rintro ⟨own, filled⟩ label refers
        rcases (mine label).mp refers with written | ⟨text, there, refers⟩
        · exact own label written
        · exact filled text there label refers
    rw [List.map_cons, KnownFrom, OwnFrom, SuppliedFrom, here, ih others, and_and_and_comm]

theorem OwnFrom.mono (own : OwnFrom known parts) (within : known ⊆ more) : OwnFrom more parts := by
  induction parts generalizing known more with
  | nil => trivial
  | cons part rest ih =>
    refine ⟨fun label written => within (own.1 label written), ih own.2 ?_⟩
    exact List.append_subset.mpr
      ⟨fun label there => List.mem_append_left _ (within there), List.subset_append_right _ _⟩

theorem ownFrom_append : OwnFrom known (first ++ last) ↔
    OwnFrom known first ∧ OwnFrom (known ++ planLabels (first.map Part.operation)) last := by
  induction first generalizing known with
  | nil =>
    rw [List.nil_append, List.map_nil, planLabels, List.flatMap_nil, List.append_nil]
    exact ⟨fun rest => ⟨trivial, rest⟩, fun both => both.2⟩
  | cons part rest ih =>
    rw [List.cons_append, OwnFrom, OwnFrom, ih, and_assoc, List.map_cons, planLabels, planLabels,
      List.flatMap_cons, List.append_assoc]

theorem ownFrom_of_nil (plain : ∀ part ∈ parts, part.own = []) : OwnFrom known parts := by
  induction parts generalizing known with
  | nil => trivial
  | cons part rest ih =>
    obtain ⟨mine, others⟩ := List.forall_mem_cons.mp plain
    refine ⟨fun label written => ?_, ih others⟩
    rw [mine] at written
    exact absurd written List.not_mem_nil

theorem ownFrom_middle (before : ∀ part ∈ first, part.own = []) (own : OwnFrom [] middle)
    (after : ∀ part ∈ last, part.own = []) : OwnFrom known (first ++ middle ++ last) := by
  refine ownFrom_append.mpr ⟨ownFrom_append.mpr ⟨ownFrom_of_nil before, ?_⟩, ownFrom_of_nil after⟩
  exact own.mono (List.nil_subset _)

end Parts

end SuiteCloud.Mail.Stalwart
