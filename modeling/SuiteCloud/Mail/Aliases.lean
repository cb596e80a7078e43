/-
**Editing one alias at a time.**

`suite_cloud/api/mail/aliases.py` over `owned` with `for_update`, and the part of a save that concerns the
aliases: `validate_aliases`, `aliases_changed` and `aliases_payload` of
`suite_cloud/mail/tenancy/sync.py`. A call waits for the lock of the parent, loads it, saves it, sends the
cluster the whole alias map on the way, and commits or rolls back.

* `edit` and `perform` — a call, up to its commit.
* `Request.applyTo` — what a call does to the aliases.
* `aliases_follow_commits` — **the committed rows are the calls' doing, in the order of their commits**, and
  the cluster has them unless the last call that patched it was rolled back.
* `rolled_back_alias_stays` — a call that is rolled back after its patch.

The cluster refuses no call here, and the parent is on it. Loads `for_update` and the copy before a save
read what is committed last.
-/

import SuiteCloud.Library.Maps
import SuiteCloud.Library.Transition
import SuiteCloud.Mail.Tenancy.Addresses

set_option linter.unusedSectionVars false

namespace SuiteCloud.Mail.Aliases

open SuiteCloud.Library SuiteCloud.Mail.Tenancy

/-! ## Alias rows and the cluster's map -/

/-- A Mail Address Alias. -/
structure AliasRow where
  aliasEmail : String
  enabled : Bool
  description : Option String
  deriving DecidableEq

/-- An `EmailAlias`, as the cluster has it. -/
structure EmailAlias where
  name : String
  domainId : String
  enabled : Bool
  description : Option String
  deriving DecidableEq

/-- What a row is compared by. -/
def AliasRow.key (row : AliasRow) : String × Bool × String :=
  (row.aliasEmail, row.enabled, row.description.getD "")

/-- **`aliases_changed`**: the sorted keys differ. -/
def aliasesChanged (before after : List AliasRow) : Bool :=
  ¬ (before.map AliasRow.key).Perm (after.map AliasRow.key)

/-- The ids the cluster has for domains; one without an id makes a save raise. -/
abbrev DomainIds := String → Option String

variable (domainIds : DomainIds)

/-- One entry of `aliases`. -/
def emailAlias (row : AliasRow) : Option EmailAlias :=
  (domainIds (domainPart row.aliasEmail)).map fun id =>
    { name := localPart row.aliasEmail
      domainId := id
      enabled := row.enabled
      description := row.description.filter (· ≠ "") }

/-- **`aliases_payload`**: the entry of each row, under its index. -/
def aliasesPayload (rows : List AliasRow) : Option (List EmailAlias) := rows.mapM (emailAlias domainIds)

/-! ## A call -/

inductive Request
  | add (address : String) (description : Option String)
  | remove (address : String)
  | setEnabled (address : String) (enabled : Bool)
  deriving DecidableEq

/-- What a call makes of the rows it loaded. -/
inductive Edit
  | raises
  /-- There is nothing to save. -/
  | leaves
  | saves (rows : List AliasRow)

/-- The row of `_row`, enabled or disabled. -/
def setFirst (address : String) (enabled : Bool) : List AliasRow → List AliasRow
  | [] => []
  | row :: rest =>
    if row.aliasEmail = address then { row with enabled := enabled } :: rest
    else row :: setFirst address enabled rest

/-- `_row` finds one. -/
def hasRow (address : String) (rows : List AliasRow) : Bool := rows.any (·.aliasEmail = address)

variable (platform : Platform) (email : String)

/-- **`add`, `remove` and `set_enabled`**, up to the save; `email` is the primary address. -/
def edit (rows : List AliasRow) : Request → Edit
  | .add address description =>
    let address := platform.normalizeName address
    if hasRow address rows then .leaves
    else .saves (rows ++ [⟨address, true, description.filter (· ≠ "")⟩])
  | .remove address =>
    let address := platform.normalizeName address
    if address = email then .raises
    else if hasRow address rows then .saves (rows.eraseP (·.aliasEmail = address))
    else .leaves
  | .setEnabled address enabled =>
    let address := platform.normalizeName address
    if hasRow address rows then .saves (setFirst address enabled rows) else .raises

/-- **`validate_aliases`**; `available` says that an address is on a domain of the tenant and free. -/
def validateAliases (available : String → Bool) : List String → List AliasRow → Option (List AliasRow)
  | _, [] => some []
  | seen, row :: rest =>
    (platform.validateEmailAddress row.aliasEmail).bind fun address =>
      if address ≠ email ∧ address ∉ seen ∧ available address = true then
        (validateAliases available (address :: seen) rest).map ({ row with aliasEmail := address } :: ·)
      else none

/-- **A call**, on the rows it loaded and those committed last: the rows it would commit, and the map it
sends to the cluster; `none` where it raises. -/
def perform (available : String → Bool) (before rows : List AliasRow) (request : Request) :
    Option (List AliasRow × Option (List EmailAlias)) :=
  match edit platform email rows request with
  | .raises => none
  | .leaves => some (rows, none)
  | .saves edited =>
    (validateAliases platform email available [] edited).bind fun saved =>
      if aliasesChanged before saved then (aliasesPayload domainIds saved).map fun map => (saved, some map)
      else some (saved, none)

/-- **What a call does to the aliases.** -/
def Request.applyTo (rows : List AliasRow) : Request → List AliasRow
  | .add address description =>
    let address := platform.normalizeName address
    if hasRow address rows then rows
    else rows ++ [⟨(platform.validateEmailAddress address).getD address, true, description.filter (· ≠ "")⟩]
  | .remove address => rows.eraseP (·.aliasEmail = platform.normalizeName address)
  | .setEnabled address enabled => setFirst (platform.normalizeName address) enabled rows

/-! ## Calls at once -/

/-- How far a call is. -/
inductive Phase
  /-- It waits for the lock of the parent. -/
  | waiting (request : Request)
  | loaded (request : Request) (rows : List AliasRow)
  | saved (request : Request) (rows : List AliasRow)
  | committed
  | rolledBack
  deriving DecidableEq

/-- It has the lock. -/
def Phase.locks : Phase → Bool
  | .loaded _ _ | .saved _ _ => true
  | .waiting _ | .committed | .rolledBack => false

def Phase.isOver : Phase → Bool
  | .committed | .rolledBack => true
  | .waiting _ | .loaded _ _ | .saved _ _ => false

/-- The rows that are committed, the cluster's map, who has the lock, and the calls; the calls that committed,
in their order, and the one that patched the cluster last. -/
structure State (C : Type) where
  rows : List AliasRow
  cluster : List EmailAlias
  lock : Option C
  calls : C → Option Phase
  log : List Request
  patched : Option C

inductive Action (C : Type)
  | start (call : C) (request : Request)
  | load (call : C)
  | save (call : C) (available : String → Bool)
  | commit (call : C)
  | rollback (call : C)

variable {C : Type} [DecidableEq C]

/-- **One step of a call.** -/
def step (s : State C) : Action C → Option (State C)
  | .start call request =>
    match s.calls call with
    | none => some { s with calls := Function.update s.calls call (some (.waiting request)) }
    | some _ => none
  | .load call =>
    match s.calls call, s.lock with
    | some (.waiting request), none =>
      some
        { s with
          lock := some call
          calls := Function.update s.calls call (some (.loaded request s.rows)) }
    | _, _ => none
  | .save call available =>
    match s.calls call with
    | some (.loaded request rows) =>
      (perform domainIds platform email available s.rows rows request).map fun result =>
        { s with
          cluster := result.2.getD s.cluster
          patched := if result.2.isSome then some call else s.patched
          calls := Function.update s.calls call (some (.saved request result.1)) }
    | _ => none
  | .commit call =>
    match s.calls call with
    | some (.saved request rows) =>
      some
        { s with
          rows := rows
          lock := none
          calls := Function.update s.calls call (some .committed)
          log := s.log ++ [request] }
    | _ => none
  | .rollback call =>
    match s.calls call with
    | some phase =>
      if phase.isOver then none
      else some
        { s with
          lock := if phase.locks then none else s.lock
          calls := Function.update s.calls call (some .rolledBack) }
    | none => none

/-! ## What is proved -/

/-- The rows are as a save leaves them: each in the form it is stored in, none the primary address, and no
address twice. -/
structure Stored (rows : List AliasRow) : Prop where
  form : ∀ row ∈ rows, platform.validateEmailAddress row.aliasEmail = some row.aliasEmail
  distinct : (rows.map AliasRow.aliasEmail).Nodup

/-- A parent before the calls: its rows, and the cluster's map, which has them. -/
structure Parent where
  rows : List AliasRow
  cluster : List EmailAlias
  stored : Stored platform rows
  inStep : aliasesPayload domainIds rows = some cluster

/-- No call yet. -/
def Parent.start (parent : Parent domainIds platform) : State C :=
  ⟨parent.rows, parent.cluster, none, fun _ => none, [], none⟩

section Rows

variable {domainIds : DomainIds} {platform : Platform} {email : String} {rows saved : List AliasRow}
  {request : Request} {available : String → Bool}

theorem emailAlias_congr {row other : AliasRow} (same : row.key = other.key) :
    emailAlias domainIds row = emailAlias domainIds other := by
  obtain ⟨address, rest⟩ := Prod.mk.inj same
  obtain ⟨enabled, description⟩ := Prod.mk.inj rest
  have described : row.description.filter (· ≠ "") = other.description.filter (· ≠ "") := by
    have of (text : Option String) :
        text.filter (· ≠ "") = if text.getD "" = "" then none else some (text.getD "") := by
      cases text with
      | none => rfl
      | some text =>
        by_cases empty : text = ""
        · simp [empty]
        · simp [empty]
    rw [of, of, description]
  rw [emailAlias, emailAlias, address, enabled, described]

theorem aliasesPayload_congr {other : List AliasRow} (same : rows.map AliasRow.key = other.map AliasRow.key) :
    aliasesPayload domainIds rows = aliasesPayload domainIds other := by
  induction rows generalizing other with
  | nil =>
    rw [List.map_nil, eq_comm, List.map_eq_nil_iff] at same
    rw [same]
  | cons row rest ih =>
    cases other with
    | nil => cases same
    | cons row' rest' =>
      obtain ⟨key, keys⟩ := List.cons.inj same
      rw [aliasesPayload, aliasesPayload, List.mapM_cons, List.mapM_cons, emailAlias_congr key]
      have rests := ih keys
      rw [aliasesPayload, aliasesPayload] at rests
      rw [rests]

/-- **Validated rows** are stored, and are the rows themselves where these were stored but for the form of
their addresses. -/
theorem validateAliases_stored {seen : List String}
    (valid : validateAliases platform email available seen rows = some saved) :
    Stored platform saved ∧ ∀ row ∈ saved, row.aliasEmail ∉ seen := by
  induction rows generalizing seen saved with
  | nil =>
    obtain rfl := Option.some.inj valid
    exact ⟨⟨List.forall_mem_nil _, List.nodup_nil⟩, List.forall_mem_nil _⟩
  | cons row rest ih =>
    obtain ⟨address, form, valid⟩ := Option.bind_eq_some_iff.mp valid
    obtain ⟨⟨-, unseen, -⟩, valid⟩ := Option.ite_none_right_eq_some.mp valid
    obtain ⟨others, validRest, rfl⟩ := Option.map_eq_some_iff.mp valid
    obtain ⟨stored, free⟩ := ih validRest
    refine ⟨⟨?_, ?_⟩, ?_⟩
    · intro found member
      rcases List.mem_cons.mp member with rfl | member
      · exact validateEmailAddress_again form
      · exact stored.form found member
    · refine List.nodup_cons.mpr ⟨?_, stored.distinct⟩
      intro member
      obtain ⟨found, there, same⟩ := List.mem_map.mp member
      exact free found there (same ▸ List.mem_cons_self)
    · intro found member
      rcases List.mem_cons.mp member with rfl | member
      · exact unseen
      · exact fun there => free found member (List.mem_cons_of_mem _ there)

theorem validateAliases_eq {seen : List String}
    (valid : validateAliases platform email available seen rows = some saved) :
    saved = rows.map fun row =>
      { row with aliasEmail := (platform.validateEmailAddress row.aliasEmail).getD row.aliasEmail } := by
  induction rows generalizing seen saved with
  | nil => exact (Option.some.inj valid).symm
  | cons row rest ih =>
    obtain ⟨address, form, valid⟩ := Option.bind_eq_some_iff.mp valid
    obtain ⟨-, valid⟩ := Option.ite_none_right_eq_some.mp valid
    obtain ⟨others, validRest, rfl⟩ := Option.map_eq_some_iff.mp valid
    rw [List.map_cons, ← ih validRest, form]
    rfl

theorem map_form (form : ∀ row ∈ rows, platform.validateEmailAddress row.aliasEmail = some row.aliasEmail) :
    (rows.map fun row => { row with
      aliasEmail := (platform.validateEmailAddress row.aliasEmail).getD row.aliasEmail }) = rows := by
  refine (List.map_congr_left fun row member => ?_).trans (List.map_id _)
  rw [form row member]
  rfl

theorem setFirst_addresses (address : String) (enabled : Bool) (rows : List AliasRow) :
    (setFirst address enabled rows).map AliasRow.aliasEmail = rows.map AliasRow.aliasEmail := by
  induction rows with
  | nil => rfl
  | cons row rest ih =>
    rw [setFirst]
    split
    · rfl
    · rw [List.map_cons, List.map_cons, ih]

theorem form_of_addresses {other : List AliasRow}
    (same : other.map AliasRow.aliasEmail = rows.map AliasRow.aliasEmail)
    (form : ∀ row ∈ rows, platform.validateEmailAddress row.aliasEmail = some row.aliasEmail) :
    ∀ row ∈ other, platform.validateEmailAddress row.aliasEmail = some row.aliasEmail := by
  intro row member
  have address : row.aliasEmail ∈ rows.map AliasRow.aliasEmail := by
    rw [← same]
    exact List.mem_map_of_mem member
  obtain ⟨found, there, known⟩ := List.mem_map.mp address
  rw [← known]
  exact form found there

theorem eraseP_of_not_hasRow {address : String} (absent : hasRow address rows = false) :
    rows.eraseP (·.aliasEmail = address) = rows := by
  refine List.eraseP_of_forall_not fun row member same => ?_
  exact List.any_eq_false.mp absent row member same

theorem perform_rows {before : List AliasRow} {map : Option (List EmailAlias)} (stored : Stored platform rows)
    (done : perform domainIds platform email available before rows request = some (saved, map)) :
    saved = request.applyTo platform rows ∧ Stored platform saved := by
  have kept : ∀ edited, (validateAliases platform email available [] edited).bind (fun saved =>
      if aliasesChanged before saved then (aliasesPayload domainIds saved).map fun map => (saved, some map)
      else some (saved, none)) = some (saved, map) →
        saved = (edited.map fun row => { row with
          aliasEmail := (platform.validateEmailAddress row.aliasEmail).getD row.aliasEmail }) ∧
          Stored platform saved := by
    intro edited done
    obtain ⟨valid, validated, done⟩ := Option.bind_eq_some_iff.mp done
    have same : valid = saved := by
      split at done
      · obtain ⟨_, -, pair⟩ := Option.map_eq_some_iff.mp done
        exact (Prod.mk.inj pair).1
      · exact (Prod.mk.inj (Option.some.inj done)).1
    subst same
    exact ⟨validateAliases_eq validated, (validateAliases_stored validated).1⟩
  cases request with
  | add address description =>
    rw [perform, edit] at done
    rw [Request.applyTo]
    by_cases there : hasRow (platform.normalizeName address) rows = true
    · simp only [there, if_true] at done ⊢
      obtain ⟨rfl, -⟩ := Prod.mk.inj (Option.some.inj done)
      exact ⟨rfl, stored⟩
    · simp only [there] at done ⊢
      obtain ⟨same, after⟩ := kept _ done
      refine ⟨?_, after⟩
      rw [same, List.map_append, map_form stored.form]
      rfl
  | remove address =>
    rw [perform, edit] at done
    rw [Request.applyTo]
    by_cases primary : platform.normalizeName address = email
    · simp only [primary, if_true] at done
      cases done
    · simp only [primary, if_false] at done
      by_cases there : hasRow (platform.normalizeName address) rows = true
      · simp only [there, if_true] at done
        obtain ⟨same, after⟩ := kept _ done
        refine ⟨same.trans (map_form fun row member => ?_), after⟩
        exact stored.form row (List.mem_of_mem_eraseP member)
      · simp only [there] at done
        obtain ⟨rfl, -⟩ := Prod.mk.inj (Option.some.inj done)
        exact ⟨(eraseP_of_not_hasRow (Bool.eq_false_iff.mpr there)).symm, stored⟩
  | setEnabled address enabled =>
    rw [perform, edit] at done
    rw [Request.applyTo]
    by_cases there : hasRow (platform.normalizeName address) rows = true
    · simp only [there, if_true] at done
      obtain ⟨same, after⟩ := kept _ done
      refine ⟨same.trans (map_form ?_), after⟩
      exact form_of_addresses (setFirst_addresses _ _ _) stored.form
    · simp only [there] at done
      cases done

theorem keys_addresses (rows : List AliasRow) :
    (rows.map AliasRow.key).map Prod.fst = rows.map AliasRow.aliasEmail := by
  rw [List.map_map]
  rfl

theorem sent_or_unchanged {edited : List AliasRow} {map : Option (List EmailAlias)}
    (done : (validateAliases platform email available [] edited).bind (fun saved =>
      if aliasesChanged rows saved then (aliasesPayload domainIds saved).map fun map => (saved, some map)
      else some (saved, none)) = some (saved, map)) :
    (∃ sent, map = some sent ∧ aliasesPayload domainIds saved = some sent) ∨
      (map = none ∧ (rows.map AliasRow.key).Perm (saved.map AliasRow.key)) := by
  obtain ⟨valid, -, done⟩ := Option.bind_eq_some_iff.mp done
  by_cases changed : aliasesChanged rows valid = true
  · rw [if_pos changed] at done
    obtain ⟨sent, payload, pair⟩ := Option.map_eq_some_iff.mp done
    obtain ⟨rfl, rfl⟩ := Prod.mk.inj pair
    exact Or.inl ⟨sent, rfl, payload⟩
  · rw [if_neg changed] at done
    obtain ⟨rfl, rfl⟩ := Prod.mk.inj (Option.some.inj done)
    refine Or.inr ⟨rfl, ?_⟩
    rw [aliasesChanged, decide_eq_true_iff, not_not] at changed
    exact changed

theorem length_of_perm (perm : (rows.map AliasRow.key).Perm (saved.map AliasRow.key)) :
    rows.length = saved.length := by
  have lengths := perm.length_eq
  rwa [List.length_map, List.length_map] at lengths

theorem perform_map {map : Option (List EmailAlias)} (stored : Stored platform rows)
    (done : perform domainIds platform email available rows rows request = some (saved, map)) :
    (∃ sent, map = some sent ∧ aliasesPayload domainIds saved = some sent) ∨
      (map = none ∧ aliasesPayload domainIds saved = aliasesPayload domainIds rows) := by
  obtain ⟨applied, -⟩ := perform_rows stored done
  rw [perform] at done
  cases result : edit platform email rows request with
  | raises =>
    rw [result] at done
    cases done
  | leaves =>
    rw [result] at done
    obtain ⟨rfl, rfl⟩ := Prod.mk.inj (Option.some.inj done)
    exact Or.inr ⟨rfl, rfl⟩
  | saves edited =>
    rw [result] at done
    refine (sent_or_unchanged done).imp_right ?_
    rintro ⟨rfl, perm⟩
    refine ⟨rfl, ?_⟩
    -- Adding and removing change the number of rows; the rest keeps their addresses in order.
    cases request with
    | add address description =>
      rw [Request.applyTo] at applied
      rw [edit] at result
      by_cases there : hasRow (platform.normalizeName address) rows = true
      · simp only [there, if_true] at result
        cases result
      · simp only [there] at applied
        have lengths := length_of_perm perm
        rw [applied] at lengths
        simp at lengths
    | remove address =>
      rw [Request.applyTo] at applied
      rw [edit] at result
      by_cases primary : platform.normalizeName address = email
      · simp only [primary, if_true] at result
        cases result
      · by_cases there : hasRow (platform.normalizeName address) rows = true
        · obtain ⟨row, member, same⟩ := List.any_eq_true.mp there
          have lengths := length_of_perm perm
          rw [applied, List.length_eraseP_of_mem member same] at lengths
          have some := List.length_pos_of_mem member
          omega
        · simp only [primary, there, if_false] at result
          cases result
    | setEnabled address enabled =>
      have addresses : (saved.map AliasRow.key).map Prod.fst = (rows.map AliasRow.key).map Prod.fst := by
        rw [keys_addresses, keys_addresses, applied]
        exact setFirst_addresses _ _ _
      have distinct : ((rows.map AliasRow.key).map Prod.fst).Nodup := by
        rw [keys_addresses]
        exact stored.distinct
      exact aliasesPayload_congr (eq_of_perm_of_map perm.symm addresses distinct)

end Rows

/-! ### Calls at once -/

section Runs

variable {domainIds : DomainIds} {platform : Platform} {email : String}
  {parent : Parent domainIds platform} {s s' : State C} {call other : C} {phase : Phase}

/-- The call that patched the cluster last has committed, if there is one. -/
def LastPatchCommitted (s : State C) : Prop :=
  ∀ call, s.patched = some call → s.calls call = some .committed

/-- It is past its save. -/
def Phase.isSaved : Phase → Bool
  | .saved _ _ | .committed | .rolledBack => true
  | .waiting _ | .loaded _ _ => false

/-- **The invariant.** Only the call that has the lock works on the rows, so the rows it loaded are the ones
committed last, and what it saved is its doing on them. -/
structure Inv (parent : Parent domainIds platform) (s : State C) : Prop where
  replay : s.rows = s.log.foldl (Request.applyTo platform) parent.rows
  stored : Stored platform s.rows
  locked : ∀ call phase, s.calls call = some phase → phase.locks = true → s.lock = some call
  loaded : ∀ call request rows, s.calls call = some (.loaded request rows) → rows = s.rows
  saved : ∀ call request rows, s.calls call = some (.saved request rows) →
    rows = request.applyTo platform s.rows ∧ Stored platform rows ∧
      (s.patched = some call → aliasesPayload domainIds rows = some s.cluster) ∧
      (s.patched ≠ some call → aliasesPayload domainIds rows = aliasesPayload domainIds s.rows)
  patched : ∀ call, s.patched = some call → ∃ phase, s.calls call = some phase ∧ phase.isSaved = true
  inStep : LastPatchCommitted s → aliasesPayload domainIds s.rows = some s.cluster

theorem Inv.start (parent : Parent domainIds platform) : Inv parent (parent.start : State C) :=
  { replay := rfl
    stored := parent.stored
    locked := fun _ _ there => nomatch there
    loaded := fun _ _ _ there => nomatch there
    saved := fun _ _ _ there => nomatch there
    patched := fun _ there => nomatch there
    inStep := fun _ => parent.inStep }

/-- While a call has the lock, no other one works on the rows. -/
theorem Inv.alone (inv : Inv parent s) (here : s.calls call = some phase) (locks : phase.locks = true)
    {phase' : Phase} (there : s.calls other = some phase') (locks' : phase'.locks = true) :
    other = call := by
  have ours := inv.locked call phase here locks
  have theirs := inv.locked other phase' there locks'
  exact Option.some.inj (theirs.symm.trans ours)

theorem Inv.keeps_patched {next : Phase} (inv : Inv parent s)
    (stays : ∀ phase, s.calls call = some phase → phase.isSaved = true → next.isSaved = true) :
    ∀ other, s.patched = some other →
      ∃ phase, Function.update s.calls call (some next) other = some phase ∧ phase.isSaved = true := by
  intro other last
  obtain ⟨phase, found, saved⟩ := inv.patched other last
  by_cases same : other = call
  · subst same
    exact ⟨next, Function.update_self _ _ _, stays phase found saved⟩
  · exact ⟨phase, (Function.update_of_ne same _ _).trans found, saved⟩

theorem lastPatchCommitted_of_update {next : Phase}
    (committed : ∀ other, s.patched = some other →
      Function.update s.calls call (some next) other = some .committed) (before : next ≠ .committed) :
    LastPatchCommitted s := by
  intro other last
  rcases update_eq_some (committed other last) with ⟨-, same⟩ | ⟨-, old⟩
  · exact absurd same.symm before
  · exact old

theorem start_inv {request : Request} (inv : Inv parent s)
    (taken : step domainIds platform email s (.start call request) = some s') : Inv parent s' := by
  delta step at taken
  simp only at taken
  cases here : s.calls call with
  | some phase =>
    rw [here] at taken
    cases taken
  | none =>
    rw [here] at taken
    obtain rfl := Option.some.inj taken
    refine ⟨inv.replay, inv.stored, ?_, ?_, ?_, ?_, ?_⟩
    · intro other phase found locks
      rcases update_eq_some found with ⟨-, rfl⟩ | ⟨-, old⟩
      · cases locks
      · exact inv.locked other phase old locks
    · intro other request rows found
      rcases update_eq_some found with ⟨-, waiting⟩ | ⟨-, old⟩
      · cases waiting
      · exact inv.loaded other request rows old
    · intro other request rows found
      rcases update_eq_some found with ⟨-, waiting⟩ | ⟨-, old⟩
      · cases waiting
      · exact inv.saved other request rows old
    · refine inv.keeps_patched fun phase found _ => ?_
      rw [here] at found
      cases found
    · exact fun committed => inv.inStep (lastPatchCommitted_of_update committed nofun)

theorem load_inv (inv : Inv parent s)
    (taken : step domainIds platform email s (.load call) = some s') : Inv parent s' := by
  delta step at taken
  simp only at taken
  split at taken
  · rename_i request here free
    obtain rfl := Option.some.inj taken
    have idle : ∀ other phase, s.calls other = some phase → phase.locks = false := by
      intro other phase found
      by_contra locks
      rw [Bool.not_eq_false] at locks
      exact Option.some_ne_none _ ((inv.locked other phase found locks).symm.trans free)
    refine ⟨inv.replay, inv.stored, ?_, ?_, ?_, ?_, ?_⟩
    · intro other phase found locks
      rcases update_eq_some found with ⟨rfl, -⟩ | ⟨-, old⟩
      · rfl
      · rw [idle other phase old] at locks
        cases locks
    · intro other request rows found
      rcases update_eq_some found with ⟨-, loaded⟩ | ⟨-, old⟩
      · exact (Phase.loaded.inj loaded).2
      · exact inv.loaded other request rows old
    · intro other request rows found
      rcases update_eq_some found with ⟨-, loaded⟩ | ⟨-, old⟩
      · cases loaded
      · exact inv.saved other request rows old
    · refine inv.keeps_patched fun phase found saved => ?_
      rw [here] at found
      obtain rfl := Option.some.inj found
      cases saved
    · exact fun committed => inv.inStep (lastPatchCommitted_of_update committed nofun)
  · cases taken

theorem save_inv {available : String → Bool} (inv : Inv parent s)
    (taken : step domainIds platform email s (.save call available) = some s') : Inv parent s' := by
  delta step at taken
  simp only at taken
  split at taken
  · rename_i request rows here
    obtain ⟨⟨saved, map⟩, done, rfl⟩ := Option.map_eq_some_iff.mp taken
    obtain rfl := inv.loaded call request rows here
    obtain ⟨applied, stored⟩ := perform_rows inv.stored done
    have unpatched : s.patched ≠ some call := by
      intro last
      obtain ⟨phase, found, saved⟩ := inv.patched call last
      rw [here] at found
      obtain rfl := Option.some.inj found
      cases saved
    have alone : ∀ other phase, other ≠ call → s.calls other = some phase → phase.locks = false := by
      intro other phase different found
      by_contra locks
      rw [Bool.not_eq_false] at locks
      exact different (inv.alone here rfl found locks)
    have others : ∀ other phase, Function.update s.calls call (some (Phase.saved request saved)) other =
        some phase → phase.locks = true → other = call := by
      intro other phase found locks
      rcases update_eq_some found with ⟨same, -⟩ | ⟨different, old⟩
      · exact same
      · rw [alone other phase different old] at locks
        cases locks
    refine ⟨inv.replay, inv.stored, ?_, ?_, ?_, ?_, ?_⟩
    · intro other phase found locks
      obtain rfl := others other phase found locks
      exact inv.locked _ _ here rfl
    · intro other request rows found
      rcases update_eq_some found with ⟨-, loaded⟩ | ⟨-, old⟩
      · cases loaded
      · exact inv.loaded other request rows old
    · intro other request' rows found
      rcases update_eq_some found with ⟨rfl, same⟩ | ⟨different, old⟩
      · obtain ⟨rfl, rfl⟩ := Phase.saved.inj same
        rcases perform_map inv.stored done with ⟨sent, rfl, payload⟩ | ⟨rfl, payload⟩
        · exact ⟨applied, stored, fun _ => payload, fun other => absurd rfl other⟩
        · exact ⟨applied, stored, fun last => absurd last unpatched, fun _ => payload⟩
      · cases alone other _ different old
    · intro other last
      by_cases same : other = call
      · subst same
        exact ⟨_, Function.update_self _ _ _, rfl⟩
      · rcases perform_map inv.stored done with ⟨sent, rfl, -⟩ | ⟨rfl, -⟩
        · exact absurd (Option.some.inj last).symm same
        · exact inv.keeps_patched (fun _ _ _ => rfl) other last
    · intro committed
      rcases perform_map inv.stored done with ⟨sent, rfl, -⟩ | ⟨rfl, -⟩
      · have ours : Function.update s.calls call (some (Phase.saved request saved)) call =
            some .committed := committed call rfl
        rw [Function.update_self] at ours
        cases ours
      · exact inv.inStep (lastPatchCommitted_of_update committed nofun)
  · cases taken

theorem commit_inv (inv : Inv parent s)
    (taken : step domainIds platform email s (.commit call) = some s') : Inv parent s' := by
  delta step at taken
  simp only at taken
  split at taken
  · rename_i request rows here
    obtain rfl := Option.some.inj taken
    obtain ⟨applied, stored, patches, quiet⟩ := inv.saved call request rows here
    -- No other call has loaded or saved rows.
    have idle : ∀ other phase, Function.update s.calls call (some Phase.committed) other = some phase →
        phase.locks = false := by
      intro other phase found
      rcases update_eq_some found with ⟨-, rfl⟩ | ⟨different, old⟩
      · rfl
      · by_contra locks
        rw [Bool.not_eq_false] at locks
        exact different (inv.alone here rfl old locks)
    refine ⟨?_, stored, ?_, ?_, ?_, ?_, ?_⟩
    · show rows = (s.log ++ [request]).foldl (Request.applyTo platform) parent.rows
      rw [List.foldl_append, ← inv.replay]
      exact applied
    · intro other phase found locks
      rw [idle other phase found] at locks
      cases locks
    · intro other request rows found
      cases idle other _ found
    · intro other request rows found
      cases idle other _ found
    · exact inv.keeps_patched fun _ _ _ => rfl
    · intro committed
      by_cases last : s.patched = some call
      · exact patches last
      · show aliasesPayload domainIds rows = some s.cluster
        rw [quiet last]
        refine inv.inStep fun other patched => ?_
        rcases update_eq_some (committed other patched) with ⟨rfl, -⟩ | ⟨-, old⟩
        · exact absurd patched last
        · exact old
  · cases taken

theorem rollback_inv (inv : Inv parent s)
    (taken : step domainIds platform email s (.rollback call) = some s') : Inv parent s' := by
  delta step at taken
  simp only at taken
  cases here : s.calls call with
  | none =>
    rw [here] at taken
    cases taken
  | some phase =>
    rw [here] at taken
    obtain ⟨-, result⟩ := Option.ite_none_left_eq_some.mp taken
    obtain rfl := Option.some.inj result
    refine ⟨inv.replay, inv.stored, ?_, ?_, ?_, ?_, ?_⟩
    · intro other phase' found locks
      rcases update_eq_some found with ⟨-, rfl⟩ | ⟨different, old⟩
      · cases locks
      · show (if phase.locks = true then none else s.lock) = some other
        have free : ¬ phase.locks = true := fun ours => different (inv.alone here ours old locks)
        rw [if_neg free]
        exact inv.locked other phase' old locks
    · intro other request rows found
      rcases update_eq_some found with ⟨-, ended⟩ | ⟨-, old⟩
      · cases ended
      · exact inv.loaded other request rows old
    · intro other request rows found
      rcases update_eq_some found with ⟨-, ended⟩ | ⟨-, old⟩
      · cases ended
      · exact inv.saved other request rows old
    · exact inv.keeps_patched fun _ _ _ => rfl
    · exact fun committed => inv.inStep (lastPatchCommitted_of_update committed nofun)

theorem step_inv {action : Action C} (inv : Inv parent s)
    (taken : step domainIds platform email s action = some s') : Inv parent s' := by
  cases action with
  | start call request => exact start_inv inv taken
  | load call => exact load_inv inv taken
  | save call available => exact save_inv inv taken
  | commit call => exact commit_inv inv taken
  | rollback call => exact rollback_inv inv taken

end Runs

/-- **Editing one alias at a time loses nothing.** The committed rows are what the calls that committed do,
in the order of their commits; and unless the call that patched the cluster last is under way or was rolled
back, the cluster's map is that of the committed rows. -/
theorem aliases_follow_commits {domainIds : DomainIds} {platform : Platform} {email : String}
    {parent : Parent domainIds platform} {s : State C}
    (reached : Reaches (step domainIds platform email) anyStep parent.start s) :
    s.rows = s.log.foldl (Request.applyTo platform) parent.rows ∧
      (LastPatchCommitted s → aliasesPayload domainIds s.rows = some s.cluster) := by
  have inv : Inv parent s :=
    reached.invariant (Inv parent) (Inv.start parent) fun inv _ taken => step_inv inv taken
  exact ⟨inv.replay, inv.inStep⟩

/-! ### Two calls -/

/-- The cluster has one domain. -/
def acmeIds : DomainIds := fun domain => if domain = "acme.com" then some "d1" else none

/-- An account without aliases. -/
def ada : Parent acmeIds asciiPlatform := ⟨[], [], ⟨List.forall_mem_nil _, List.nodup_nil⟩, rfl⟩

/-- Two admins add an alias each; the second waits for the lock of the first. -/
def bothAdd : List (Action Bool) :=
  [.start true (.add "sales@acme.com" none), .start false (.add "Help@acme.com " (some "Support")),
    .load true, .save true fun _ => true, .commit true, .load false, .save false fun _ => true,
    .commit false]

theorem aliases_follow_commits_both_add :
    ∃ s, run (step acmeIds asciiPlatform "ada@acme.com") ada.start bothAdd = some s ∧
      s.rows.map AliasRow.aliasEmail = ["sales@acme.com", "help@acme.com"] ∧
      aliasesPayload acmeIds s.rows = some s.cluster := by
  have ends : (run (step acmeIds asciiPlatform "ada@acme.com") (ada.start : State Bool) bothAdd).map
      (fun s => (s.rows.map AliasRow.aliasEmail, s.patched, s.calls false)) =
        some (["sales@acme.com", "help@acme.com"], some false, some .committed) := by
    decide +kernel
  obtain ⟨s, done, facts⟩ := Option.map_eq_some_iff.mp ends
  obtain ⟨rows, rest⟩ := Prod.mk.inj facts
  obtain ⟨last, committed⟩ := Prod.mk.inj rest
  have reached : Reaches (step acmeIds asciiPlatform "ada@acme.com") anyStep ada.start s :=
    reaches_of_run (runMeets_of_forall fun _ _ _ => trivial) done
  refine ⟨s, done, rows, (aliases_follow_commits reached).2 fun call patched => ?_⟩
  obtain rfl := Option.some.inj (last.symm.trans patched)
  exact committed

/-- **An alias that was rolled back stays on the cluster**: the call is rolled back after its patch. -/
theorem rolled_back_alias_stays :
    ∃ s, Reaches (step acmeIds asciiPlatform "ada@acme.com") anyStep (ada.start : State Bool) s ∧
      (∀ call phase, s.calls call = some phase → phase.isOver = true) ∧
      aliasesPayload acmeIds s.rows = some [] ∧ s.cluster = [⟨"sales", "d1", true, none⟩] := by
  have ends : (run (step acmeIds asciiPlatform "ada@acme.com") (ada.start : State Bool)
      [.start true (.add "sales@acme.com" none), .load true, .save true fun _ => true, .rollback true]).map
        (fun s => (s.calls true, s.calls false, aliasesPayload acmeIds s.rows, s.cluster)) =
          some (some .rolledBack, none, some [], [⟨"sales", "d1", true, none⟩]) := by
    decide +kernel
  obtain ⟨s, done, facts⟩ := Option.map_eq_some_iff.mp ends
  obtain ⟨one, rest⟩ := Prod.mk.inj facts
  obtain ⟨two, rest⟩ := Prod.mk.inj rest
  obtain ⟨payload, cluster⟩ := Prod.mk.inj rest
  refine ⟨s, reaches_of_run (runMeets_of_forall fun _ _ _ => trivial) done, ?_, payload, cluster⟩
  intro call phase found
  cases call with
  | true =>
    obtain rfl := Option.some.inj (one.symm.trans found)
    rfl
  | false =>
    rw [two] at found
    cases found

end SuiteCloud.Mail.Aliases
