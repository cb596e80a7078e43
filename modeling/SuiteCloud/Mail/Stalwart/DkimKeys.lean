/-
**Replacing the DKIM keys of a domain.**

`DomainService.replace_dkim_keys` and `dkim_management_payload` of
`suite_cloud/mail/stalwart/directory.py`, as requests that may fail before or after they take effect. A
run takes a domain through manual management and back, and deletes its keys in between; the request that
has new keys generated is tried twice. A run may break off anywhere, and runs follow one another.

* `Domain` — the management and the keys; every key has an id below the next one to be given.
* `Domain.manage`, `Domain.delete` — what the server does.
* `Stage`, `step` — a run, one request after the other.
* `Guarded` — **the invariant**: keys are deleted under manual management only.
* `Progress` — what a run whose requests all succeed has done at each stage.
* `keys_replaced_from_anywhere` — **replacing keys is recoverable from anywhere**.
-/

import SuiteCloud.Library.Calls
import SuiteCloud.Library.Dict
import SuiteCloud.Library.Transition

set_option linter.unusedSectionVars false

namespace SuiteCloud.Mail.Stalwart.DkimKeys

open SuiteCloud.Library

variable {A : Type} [DecidableEq A]

/-! ## Domains -/

/-- `DAY_MS`. -/
def dayMs : ℕ := 24 * 60 * 60 * 1000

/-- `DKIM_ROTATE_AFTER_MS`. -/
def dkimRotateAfterMs : ℕ := 100 * 365 * dayMs

/-- `DKIM_SELECTOR_TEMPLATE`, a template of the server's. -/
def dkimSelectorTemplate : String := "frappemail-\x7balgorithm\x7d"

/-- What automatic management is told. -/
structure Policy (A : Type) where
  algorithms : Dict A Bool
  selectorTemplate : String
  rotateAfter : ℕ
  retireAfter : ℕ
  deleteAfter : ℕ
  deriving DecidableEq

/-- `dkimManagement` of a domain. -/
inductive Management (A : Type)
  | manual
  | automatic (policy : Policy A)
  deriving DecidableEq

/-- `id_set`. -/
def idSet (ids : List A) : Dict A Bool := Dict.ofList (ids.map (·, true))

/-- **`dkim_management_payload`.** -/
def dkimManagementPayload (algorithms : List A) : Management A :=
  match algorithms with
  | [] => .manual
  | _ => .automatic ⟨idSet algorithms, dkimSelectorTemplate, dkimRotateAfterMs, 7 * dayMs, 30 * dayMs⟩

/-- A DKIM signature. -/
structure Key (A : Type) where
  id : ℕ
  algorithm : A
  deriving DecidableEq

/-- **A domain**: how its keys are managed, the keys, and the next id the server gives. -/
structure Domain (A : Type) where
  management : Management A
  keys : List (Key A)
  next : ℕ
  issued : ∀ key ∈ keys, key.id < next

/-- The algorithms of a policy that no key is for. -/
def Domain.lacks (domain : Domain A) (policy : Policy A) : List A :=
  policy.algorithms.keys.filter fun algorithm => algorithm ∉ domain.keys.map Key.algorithm

/-- New keys, with the ids from `next` on. -/
def generate (next : ℕ) (algorithms : List A) : List (Key A) :=
  (algorithms.zipIdx next).map fun entry => ⟨entry.2, entry.1⟩

theorem generate_id {next : ℕ} {algorithms : List A} {key : Key A}
    (member : key ∈ generate next algorithms) :
    next ≤ key.id ∧ key.id < next + algorithms.length := by
  obtain ⟨entry, there, rfl⟩ := List.mem_map.mp member
  exact ⟨List.le_snd_of_mem_zipIdx there, List.snd_lt_add_of_mem_zipIdx there⟩

theorem exists_generated {next : ℕ} {algorithms : List A} {algorithm : A}
    (member : algorithm ∈ algorithms) : ∃ key ∈ generate next algorithms, key.algorithm = algorithm := by
  obtain ⟨i, bound, rfl⟩ := List.getElem_of_mem member
  refine ⟨⟨next + i, algorithms[i]⟩, List.mem_map.mpr ⟨(algorithms[i], next + i), ?_, rfl⟩, rfl⟩
  refine List.mk_mem_zipIdx_iff_le_and_getElem?_sub.mpr ⟨Nat.le_add_right _ _, ?_⟩
  rw [Nat.add_sub_cancel_left, List.getElem?_eq_getElem bound]

/-- **The server sets the management.** A domain that comes under automatic management gets a new key for
each algorithm it lacks. -/
def Domain.manage (domain : Domain A) (management : Management A) : Domain A :=
  match domain.management, management with
  | .manual, .automatic policy =>
      { management := .automatic policy
        keys := domain.keys ++ generate domain.next (domain.lacks policy)
        next := domain.next + (domain.lacks policy).length
        issued := by
          intro key member
          rcases List.mem_append.mp member with before | new
          · exact Nat.lt_add_right _ (domain.issued key before)
          · exact (generate_id new).2 }
  | _, _ => { domain with management := management }

/-- **The server deletes keys.** -/
def Domain.delete (domain : Domain A) (ids : List ℕ) : Domain A :=
  { domain with
    keys := domain.keys.filter (·.id ∉ ids)
    issued := fun key member => domain.issued key (List.mem_of_mem_filter member) }

variable {domain : Domain A} {management : Management A} {policy : Policy A} {key : Key A} {ids : List ℕ}

@[simp] theorem manage_management : (domain.manage management).management = management := by
  delta Domain.manage
  split
  · rfl
  · rfl

theorem keys_manage (member : key ∈ domain.keys) : key ∈ (domain.manage management).keys := by
  delta Domain.manage
  split
  · exact List.mem_append_left _ member
  · exact member

theorem keys_manage_manual : (domain.manage .manual).keys = domain.keys := by
  delta Domain.manage
  split
  · rename_i impossible
    cases impossible
  · rfl

theorem next_manage_manual : (domain.manage .manual).next = domain.next := by
  delta Domain.manage
  split
  · rename_i impossible
    cases impossible
  · rfl

/-! ## A run -/

/-- Where a run stands: the request it is about to send. -/
inductive Stage
  | reading
  | toManual
  | listing
  /-- A batch of the keys that were listed, and the batches after it. -/
  | deleting (batch : List ℕ) (rest : List (List ℕ))
  /-- The request that has keys generated, for the first time or again. -/
  | toAutomatic (again : Bool)

/-- A run of `replace_dkim_keys`. -/
structure Run (A : Type) where
  algorithms : List A
  stage : Stage

/-- How a run came to its end: it returned, an error of a request passed through it, or it reported the
domain keyless. -/
inductive Result
  | returned
  | raised
  | keyless
  deriving DecidableEq

/-- The domain, the run under way, and how the last one ended. -/
structure State (A : Type) where
  domain : Domain A
  run : Option (Run A)
  ended : Option Result

/-- What becomes of a request. -/
inductive Outcome
  | succeeds
  | failsBefore
  | failsAfter
  /-- A delete that is refused for some of its keys. -/
  | failsFor (kept : List ℕ)

inductive Action (A : Type)
  | start (algorithms : List A)
  /-- The run's next request. -/
  | request (outcome : Outcome)
  /-- The process stops. -/
  | cut

/-- No run yet. -/
def State.initial (domain : Domain A) : State A := ⟨domain, none, none⟩

/-- A run begins. -/
def State.started (s : State A) (algorithms : List A) : State A :=
  { s with run := some ⟨algorithms, .reading⟩ }

/-- `max_objects_in_set`: the capability, where it is there and not zero. -/
def maxObjectsInSet (capability : Option ℕ) : ℕ :=
  match capability with
  | none | some 0 => 500
  | some most => most

theorem maxObjectsInSet_pos {capability : Option ℕ} : 0 < maxObjectsInSet capability := by
  match capability with
  | none => decide
  | some 0 => decide
  | some (most + 1) => exact Nat.succ_pos most

variable (capability : Option ℕ) (s : State A) (run : Run A)

/-- A run goes on to its next request. -/
def State.goesOn (domain : Domain A) (stage : Stage) : State A :=
  { s with domain := domain, run := some { run with stage := stage } }

/-- A run ends. -/
def State.ends (domain : Domain A) (result : Result) : State A := ⟨domain, none, some result⟩

/-- The stage after a batch. -/
def afterBatch : List (List ℕ) → Stage
  | [] => .toAutomatic false
  | batch :: rest => .deleting batch rest

/-- A request that changes the domain: what a failure leaves of it. -/
def Outcome.leaves (outcome : Outcome) (before after : Domain A) : Domain A :=
  match outcome with
  | .failsBefore | .failsFor _ => before
  | .failsAfter | .succeeds => after

/-- **The run's next request.** -/
def State.request (outcome : Outcome) : State A :=
  match run.stage, outcome with
  | .reading, .succeeds =>
      s.goesOn run s.domain (if s.domain.management = .manual then .listing else .toManual)
  | .toManual, .succeeds => s.goesOn run (s.domain.manage .manual) .listing
  | .listing, .succeeds =>
      s.goesOn run s.domain (afterBatch (batches (maxObjectsInSet capability) (s.domain.keys.map Key.id)))
  | .deleting batch rest, .succeeds => s.goesOn run (s.domain.delete batch) (afterBatch rest)
  | .toAutomatic _, .succeeds =>
      State.ends (s.domain.manage (dkimManagementPayload run.algorithms)) .returned
  | .reading, _ => State.ends s.domain .raised
  | .toManual, outcome => State.ends (outcome.leaves s.domain (s.domain.manage .manual)) .raised
  | .listing, _ => State.ends s.domain .raised
  | .deleting batch _, .failsFor kept => State.ends (s.domain.delete (batch.filter (· ∉ kept))) .raised
  | .deleting batch _, outcome => State.ends (outcome.leaves s.domain (s.domain.delete batch)) .raised
  | .toAutomatic false, outcome =>
      s.goesOn run (outcome.leaves s.domain (s.domain.manage (dkimManagementPayload run.algorithms)))
        (.toAutomatic true)
  | .toAutomatic true, outcome =>
      State.ends (outcome.leaves s.domain (s.domain.manage (dkimManagementPayload run.algorithms))) .keyless

/-- **One step.** One run is under way at a time. -/
def step (s : State A) : Action A → Option (State A)
  | .start algorithms => if s.run.isSome then none else some (s.started algorithms)
  | .request outcome => s.run.map fun run => s.request capability run outcome
  | .cut => some { s with run := none }

/-- The requests that only read. -/
def Stage.isRead : Stage → Bool
  | .reading | .listing => true
  | _ => false

/-- **No request takes effect**: one that changes the domain fails before. -/
def withoutEffect (s : State A) : Action A → Prop
  | .request outcome => ∀ run, s.run = some run → run.stage.isRead = true ∨ outcome = .failsBefore
  | _ => True

/-- **Every request succeeds**, and the process goes on. -/
def succeeding (_ : State A) : Action A → Prop
  | .request outcome => outcome = .succeeds
  | _ => False

/-! ## Keys are deleted under manual management -/

/-- **The invariant**: a run that is about to list or delete keys has the domain under manual
management. -/
def Guarded (s : State A) : Prop :=
  ∀ run, s.run = some run → match run.stage with
    | .listing | .deleting _ _ => s.domain.management = .manual
    | _ => True

variable {capability s run} {s' : State A} {action : Action A} {outcome : Outcome} {stage : Stage}
  {algorithms : List A}

theorem guarded_of_idle (idle : s.run = none) : Guarded s := fun run here => by
  rw [idle] at here
  cases here

theorem guarded_goesOn {domain : Domain A}
    (manual : stage = .listing ∨ (∃ batch rest, stage = .deleting batch rest) →
      domain.management = .manual) : Guarded (s.goesOn run domain stage) := by
  intro other here
  obtain rfl := Option.some.inj here
  cases stage with
  | listing => exact manual (Or.inl rfl)
  | deleting batch rest => exact manual (Or.inr ⟨batch, rest, rfl⟩)
  | reading => trivial
  | toManual => trivial
  | toAutomatic => trivial

theorem guarded_ends {domain : Domain A} {result : Result} : Guarded (State.ends domain result) :=
  guarded_of_idle rfl

theorem guarded_request (guarded : Guarded s) (here : s.run = some run) :
    Guarded (s.request capability run outcome) := by
  have known := guarded run here
  delta State.request
  split
  · refine guarded_goesOn fun about => ?_
    split at about
    · assumption
    · rcases about with listing | ⟨batch, rest, deleting⟩
      · cases listing
      · cases deleting
  · exact guarded_goesOn fun _ => manage_management
  · rename_i listing
    rw [listing] at known
    exact guarded_goesOn fun _ => known
  · rename_i deleting
    rw [deleting] at known
    exact guarded_goesOn fun _ => known
  · exact guarded_ends
  · exact guarded_ends
  · exact guarded_ends
  · exact guarded_ends
  · exact guarded_ends
  · exact guarded_ends
  · refine guarded_goesOn ?_
    rintro (listing | ⟨batch, rest, deleting⟩)
    · cases listing
    · cases deleting
  · exact guarded_ends

theorem guarded_step (guarded : Guarded s) (taken : step capability s action = some s') : Guarded s' := by
  cases action with
  | start algorithms =>
    rw [step] at taken
    split at taken
    · cases taken
    · obtain rfl := Option.some.inj taken
      intro run here
      obtain rfl := Option.some.inj here
      trivial
  | request outcome =>
    obtain ⟨run, here, rfl⟩ := Option.map_eq_some_iff.mp taken
    exact guarded_request guarded here
  | cut =>
    obtain rfl := Option.some.inj taken
    exact guarded_of_idle rfl

theorem leaves_cases (Holds : Domain A → Prop) {before after : Domain A} (first : Holds before)
    (second : Holds after) : Holds (outcome.leaves before after) := by
  cases outcome with
  | succeeds => exact second
  | failsBefore => exact first
  | failsAfter => exact second
  | failsFor => exact first

theorem keys_request (member : key ∈ s.domain.keys) :
    key ∈ (s.request capability run outcome).domain.keys ∨ ∃ batch rest, run.stage = .deleting batch rest := by
  delta State.request
  split
  · exact Or.inl member
  · exact Or.inl (keys_manage member)
  · exact Or.inl member
  · exact Or.inr ⟨_, _, ‹run.stage = .deleting _ _›⟩
  · exact Or.inl (keys_manage member)
  · exact Or.inl member
  · exact Or.inl (leaves_cases (fun domain => key ∈ domain.keys) member (keys_manage member))
  · exact Or.inl member
  · exact Or.inr ⟨_, _, ‹run.stage = .deleting _ _›⟩
  · exact Or.inr ⟨_, _, ‹run.stage = .deleting _ _›⟩
  · exact Or.inl (leaves_cases (fun domain => key ∈ domain.keys) member (keys_manage member))
  · exact Or.inl (leaves_cases (fun domain => key ∈ domain.keys) member (keys_manage member))

theorem manual_of_deleted (guarded : Guarded s) (taken : step capability s action = some s')
    (member : key ∈ s.domain.keys) (gone : key ∉ s'.domain.keys) : s.domain.management = .manual := by
  cases action with
  | start algorithms =>
    rw [step] at taken
    split at taken
    · cases taken
    · obtain rfl := Option.some.inj taken
      exact absurd member gone
  | request outcome =>
    obtain ⟨run, here, rfl⟩ := Option.map_eq_some_iff.mp taken
    obtain ⟨batch, rest, deleting⟩ := (keys_request member).resolve_left gone
    have known := guarded run here
    rw [deleting] at known
    exact known
  | cut =>
    obtain rfl := Option.some.inj taken
    exact absurd member gone

theorem domain_of_withoutEffect (allowed : withoutEffect s action)
    (taken : step capability s action = some s') : s'.domain = s.domain := by
  cases action with
  | start algorithms =>
    rw [step] at taken
    split at taken
    · cases taken
    · obtain rfl := Option.some.inj taken
      rfl
  | request outcome =>
    obtain ⟨run, here, rfl⟩ := Option.map_eq_some_iff.mp taken
    rcases allowed run here with read | rfl
    · cases stage : run.stage with
      | reading => cases outcome <;> simp only [State.request, stage] <;> rfl
      | listing => cases outcome <;> simp only [State.request, stage] <;> rfl
      | toManual => rw [stage] at read; cases read
      | deleting => rw [stage] at read; cases read
      | toAutomatic => rw [stage] at read; cases read
    · cases stage : run.stage with
      | toAutomatic again => cases again <;> simp only [State.request, stage] <;> rfl
      | _ => simp only [State.request, stage]; rfl
  | cut =>
    obtain rfl := Option.some.inj taken
    rfl

/-! ## A run whose requests all succeed -/

/-- **What a run has done at each stage**, where all its requests have succeeded: `first` is the domain
it began with. -/
def Progress (first : Domain A) (algorithms : List A) (s : State A) : Prop :=
  first.next ≤ s.domain.next ∧ match s.run with
    | none => s.ended = some .returned ∧ s.domain.management = dkimManagementPayload algorithms ∧
        (∀ key ∈ first.keys, key ∉ s.domain.keys) ∧
        ∀ algorithm ∈ algorithms, ∃ key ∈ s.domain.keys, key.algorithm = algorithm
    | some run => run.algorithms = algorithms ∧ match run.stage with
        | .reading => s.domain = first
        | .toManual => s.domain = first ∧ first.management ≠ .manual
        | .listing => s.domain.management = .manual ∧ s.domain.keys = first.keys
        | .deleting batch rest => s.domain.management = .manual ∧
            ∀ key ∈ s.domain.keys, key.id ∈ batch ++ rest.flatten
        | .toAutomatic _ => s.domain.management = .manual ∧ s.domain.keys = []

theorem progress_started : Progress s.domain algorithms (s.started algorithms) := ⟨le_refl _, rfl, rfl⟩

theorem progress_afterBatch {first domain : Domain A} {rest : List (List ℕ)}
    (same : run.algorithms = algorithms) (later : first.next ≤ domain.next)
    (manual : domain.management = .manual) (left : ∀ key ∈ domain.keys, key.id ∈ rest.flatten) :
    Progress first algorithms (s.goesOn run domain (afterBatch rest)) := by
  refine ⟨later, same, ?_⟩
  cases rest with
  | nil =>
    refine ⟨manual, List.eq_nil_iff_forall_not_mem.mpr fun key member => ?_⟩
    cases left key member
  | cons batch rest => exact ⟨manual, left⟩

theorem progress_manage {first : Domain A} (some_algorithm : algorithms ≠ [])
    (later : first.next ≤ s.domain.next) (manual : s.domain.management = .manual)
    (keyless : s.domain.keys = []) :
    Progress first algorithms
      (State.ends (s.domain.manage (dkimManagementPayload algorithms)) .returned) := by
  obtain ⟨algorithm, rest, rfl⟩ := List.exists_cons_of_ne_nil some_algorithm
  generalize policy_eq : (⟨idSet (algorithm :: rest), dkimSelectorTemplate, dkimRotateAfterMs, 7 * dayMs,
    30 * dayMs⟩ : Policy A) = policy
  have payload : dkimManagementPayload (algorithm :: rest) = .automatic policy := by
    rw [← policy_eq]
    rfl
  have lacks : s.domain.lacks policy = policy.algorithms.keys := by
    unfold Domain.lacks
    rw [keyless]
    exact List.filter_eq_self.mpr fun other _ => decide_eq_true (List.not_mem_nil (a := other))
  have managed : (s.domain.manage (.automatic policy)).keys
      = generate s.domain.next policy.algorithms.keys ∧
      s.domain.next ≤ (s.domain.manage (.automatic policy)).next := by
    unfold Domain.manage
    rw [manual]
    refine ⟨?_, Nat.le_add_right _ _⟩
    show s.domain.keys ++ generate s.domain.next (s.domain.lacks policy) = _
    rw [keyless, lacks, List.nil_append]
  rw [payload]
  refine ⟨later.trans managed.2, rfl, manage_management.trans payload.symm, fun key member there => ?_, ?_⟩
  · -- An old key has an id that was given before.
    have new := (generate_id (managed.1 ▸ there)).1
    have old := first.issued key member
    omega
  · intro wanted member
    have listed : wanted ∈ policy.algorithms.keys := by
      rw [← policy_eq]
      refine Dict.mem_keys_ofList.mpr ?_
      rw [List.map_map]
      exact List.mem_map.mpr ⟨wanted, member, rfl⟩
    obtain ⟨key, there, same⟩ : ∃ key ∈ generate s.domain.next policy.algorithms.keys, _ :=
      exists_generated listed
    exact ⟨key, managed.1 ▸ there, same⟩

theorem progress_request {first : Domain A} (some_algorithm : algorithms ≠ [])
    (progress : Progress first algorithms s) (here : s.run = some run) :
    Progress first algorithms (s.request capability run .succeeds) := by
  obtain ⟨later, known⟩ := progress
  rw [here] at known
  obtain ⟨same, known⟩ := known
  delta State.request
  cases stage : run.stage with
  | reading =>
    rw [stage] at known
    simp only
    split
    · rename_i manual
      exact ⟨later, same, manual, congrArg Domain.keys known⟩
    · rename_i other
      exact ⟨later, same, known, known ▸ other⟩
  | toManual =>
    rw [stage] at known
    simp only
    refine ⟨?_, same, manage_management, ?_⟩
    · show first.next ≤ (s.domain.manage .manual).next
      rw [next_manage_manual]
      exact later
    · show (s.domain.manage .manual).keys = _
      rw [keys_manage_manual, known.1]
  | listing =>
    rw [stage] at known
    simp only
    refine progress_afterBatch same later known.1 fun key member => ?_
    rw [flatten_batches maxObjectsInSet_pos]
    exact List.mem_map_of_mem member
  | deleting batch rest =>
    rw [stage] at known
    simp only
    refine progress_afterBatch same later known.1 fun key member => ?_
    obtain ⟨there, other⟩ := List.mem_filter.mp member
    exact (List.mem_append.mp (known.2 key there)).resolve_left (of_decide_eq_true other)
  | toAutomatic again =>
    rw [stage] at known
    simp only [same]
    exact progress_manage some_algorithm later known.1 known.2

theorem progress_step {first : Domain A} (some_algorithm : algorithms ≠ [])
    (progress : Progress first algorithms s) (allowed : succeeding s action)
    (taken : step capability s action = some s') : Progress first algorithms s' := by
  cases action with
  | start => exact allowed.elim
  | request outcome =>
    obtain rfl : outcome = .succeeds := allowed
    obtain ⟨run, here, rfl⟩ := Option.map_eq_some_iff.mp taken
    exact progress_request some_algorithm progress here
  | cut => exact allowed.elim

/-! ### A run comes to its end -/

/-- From a state a run whose requests all succeed comes to its end. -/
def Ends (capability : Option ℕ) (s : State A) : Prop :=
  ∃ s', Reaches (step capability) succeeding s s' ∧ s'.run = none

theorem ends_of_request (here : s.run = some run)
    (ends : Ends capability (s.request capability run .succeeds)) : Ends capability s := by
  obtain ⟨s', reached, idle⟩ := ends
  refine ⟨s', Reaches.trans (.single (.request .succeeds) rfl ?_) reached, idle⟩
  exact congrArg (Option.map fun run => s.request capability run .succeeds) here

theorem ends_of_afterBatch (rest : List (List ℕ)) (here : s.run = some run)
    (about : run.stage = afterBatch rest) : Ends capability s := by
  induction rest generalizing s run with
  | nil =>
    refine ends_of_request here ⟨_, .start, ?_⟩
    delta State.request
    simp only [about, afterBatch, State.ends]
  | cons batch rest ih =>
    refine ends_of_request here ?_
    delta State.request
    simp only [about, afterBatch]
    exact ih rfl rfl

theorem ends_of_listing (here : s.run = some run) (about : run.stage = .listing) : Ends capability s := by
  refine ends_of_request here ?_
  delta State.request
  simp only [about]
  exact ends_of_afterBatch _ rfl rfl

theorem ends_of_toManual (here : s.run = some run) (about : run.stage = .toManual) :
    Ends capability s := by
  refine ends_of_request here ?_
  delta State.request
  simp only [about]
  exact ends_of_listing rfl rfl

theorem ends_of_started : Ends capability (s.started algorithms) := by
  refine ends_of_request rfl ?_
  show Ends capability (s.goesOn _ s.domain
    (if s.domain.management = .manual then .listing else .toManual))
  split
  · exact ends_of_listing rfl rfl
  · exact ends_of_toManual rfl rfl

/-! ## Recoverable from anywhere -/

/-- **Replacing keys is recoverable from anywhere.** Whatever domain runs begin with, and wherever they
have been cut short or have failed, no step takes a key away unless the domain is under manual
management; requests of which none takes effect leave the domain as it is; and a run for some algorithms
whose requests all succeed comes to its end, and ends by returning, with the domain under automatic
management for these algorithms, with a key for each of them and none of the keys there were. -/
theorem keys_replaced_from_anywhere (capability : Option ℕ) (domain : Domain A) (s : State A)
    (reached : Reaches (step capability) anyStep (.initial domain) s) :
    (∀ action s', step capability s action = some s' →
      (∃ key ∈ s.domain.keys, key ∉ s'.domain.keys) → s.domain.management = .manual) ∧
    (∀ s', Reaches (step capability) withoutEffect s s' → s'.domain = s.domain) ∧
    ∀ algorithms, algorithms ≠ [] → s.run = none →
      Ends capability (s.started algorithms) ∧
      ∀ s', Reaches (step capability) succeeding (s.started algorithms) s' → s'.run = none →
        s'.ended = some .returned ∧
        (∃ policy, s'.domain.management = .automatic policy ∧
          ∀ algorithm, algorithm ∈ policy.algorithms.keys ↔ algorithm ∈ algorithms) ∧
        (∀ algorithm ∈ algorithms, ∃ key ∈ s'.domain.keys, key.algorithm = algorithm) ∧
        ∀ key ∈ s.domain.keys, key ∉ s'.domain.keys := by
  have guarded : Guarded s :=
    reached.invariant Guarded (guarded_of_idle rfl) fun guarded _ taken => guarded_step guarded taken
  refine ⟨?_, ?_, ?_⟩
  · rintro action s' taken ⟨key, member, gone⟩
    exact manual_of_deleted guarded taken member gone
  · intro s' quiet
    refine quiet.invariant (fun s' => s'.domain = s.domain) rfl ?_
    intro here there action same allowed taken
    exact (domain_of_withoutEffect allowed taken).trans same
  · intro algorithms some_algorithm idle
    refine ⟨ends_of_started, fun s' onward ended => ?_⟩
    have progress : Progress s.domain algorithms s' :=
      onward.invariant (Progress s.domain algorithms) progress_started
        fun progress allowed taken => progress_step some_algorithm progress allowed taken
    obtain ⟨-, known⟩ := progress
    rw [ended] at known
    obtain ⟨returned, management, gone, generated⟩ := known
    obtain ⟨first, rest, rfl⟩ := List.exists_cons_of_ne_nil some_algorithm
    refine ⟨returned, ⟨_, management, fun algorithm => ?_⟩, generated, gone⟩
    show algorithm ∈ (idSet (first :: rest)).keys ↔ _
    unfold idSet
    rw [Dict.mem_keys_ofList, List.map_map]
    exact ⟨fun member => by simpa using member, fun member => by simpa using member⟩

/-- **`dkim_algorithms`**, which every caller asks for: RSA always, Ed25519 by choice. -/
def dkimAlgorithms (signWithEd25519 : Bool) : List String :=
  if signWithEd25519 then ["Dkim1Ed25519Sha256", "Dkim1RsaSha256"] else ["Dkim1RsaSha256"]

theorem dkimAlgorithms_ne_nil {signWithEd25519 : Bool} : dkimAlgorithms signWithEd25519 ≠ [] := by
  cases signWithEd25519 with
  | false => exact List.cons_ne_nil _ _
  | true => exact List.cons_ne_nil _ _

/-- A domain with a leaked key, under automatic management. -/
def leakedKey : Domain String where
  management := dkimManagementPayload (dkimAlgorithms false)
  keys := [⟨0, "Dkim1RsaSha256"⟩]
  next := 1
  issued := by decide

/-- The new keys are generated, but the answers are lost twice: the domain is reported keyless. -/
def lostAnswers : List (Action String) :=
  [.start (dkimAlgorithms false), .request .succeeds, .request .succeeds, .request .succeeds,
    .request .succeeds, .request .failsAfter, .request .failsAfter]

/-- The next run recovers the domain. -/
theorem keys_replaced_from_anywhere_lost : ∃ s s' : State String,
    Reaches (step none) anyStep (.initial leakedKey) s ∧ s.ended = some .keyless ∧
      s.domain.keys.map Key.id = [1] ∧
      Reaches (step none) succeeding (s.started (dkimAlgorithms true)) s' ∧
      s'.ended = some .returned ∧ ∀ key ∈ s.domain.keys, key ∉ s'.domain.keys := by
  have seen : (run (step none) (State.initial leakedKey) lostAnswers).map (fun s =>
      (s.run.isNone, s.ended, s.domain.keys.map Key.id)) = some (true, some .keyless, [1]) := by
    decide
  obtain ⟨s, ends, facts⟩ := Option.map_eq_some_iff.mp seen
  obtain ⟨idle, keyless, ids⟩ := Prod.mk.inj facts |>.imp_right Prod.mk.inj
  have reached : Reaches (step none) anyStep (.initial leakedKey) s :=
    reaches_of_run (runMeets_of_forall fun _ _ _ => trivial) ends
  obtain ⟨-, -, recovers⟩ := keys_replaced_from_anywhere none leakedKey s reached
  obtain ⟨⟨s', onward, ended⟩, holds⟩ :=
    recovers (dkimAlgorithms true) dkimAlgorithms_ne_nil (Option.isNone_iff_eq_none.mp idle)
  obtain ⟨returned, -, -, gone⟩ := holds s' onward ended
  exact ⟨s, s', reached, keyless, ids, onward, returned, gone⟩

end SuiteCloud.Mail.Stalwart.DkimKeys
