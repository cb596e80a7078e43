/-
**The pool of ready sites.**

`claim_site` of `suite_cloud/hosting/capacity.py` beside the jobs of `suite_cloud/hosting/sites.py`. A
claim locks the oldest ready site that no one has locked, loads it in a statement of its own, and
writes its tenant; the jobs load a site, write its status in steps, and let the row go in between.

* `selectReady` — the locking read, of the rows as they are committed and not as the call sees them.
* `Pooled` — the invariant: what a call has locked is ready and nobody's until the call commits.
* `ready_site_claimed_once` — **a ready site goes to one tenant**, and what a call returned stays its
  tenant's, in every interleaving of calls and jobs.
-/

import Mathlib.Data.List.MinMax
import SuiteCloud.Library.Keyed
import SuiteCloud.Library.Maps
import SuiteCloud.Library.ReadView
import SuiteCloud.Library.Transition

set_option linter.unusedSectionVars false

namespace SuiteCloud.Hosting.Claims

open SuiteCloud.Library

/-! ## Sites -/

inductive Status
  | pending
  | creating
  | ready
  | assigned
  | configuring
  | active
  | failed
  | dropping
  | dropped
  deriving DecidableEq

/-- A Suite Site. -/
structure SuiteSite where
  name : String
  region : String
  status : Status
  tenant : Option String
  label : Option String
  siteCreated : Bool
  suiteConfigured : Bool
  creation : ℕ
  deriving DecidableEq

/-- The sites that are committed. -/
def Sites : Type := Keyed String SuiteSite SuiteSite.name

/-! ## The writes of the jobs -/

/-- The writes of a site's jobs and of an operator's retry: none of them is to the tenant. -/
inductive Write
  /-- Pilot has a task for it. -/
  | creating
  /-- `reroll_hostname`. -/
  | reroll
  /-- `mark_created`. -/
  | created
  | configuring
  | configured
  /-- `activate`. -/
  | activate
  /-- `fail`. -/
  | fail
  /-- `retry`. -/
  | resume
  | dropping
  | dropped
  deriving DecidableEq

/-- `resume_status`, by the document in memory. -/
def resumeStatus (doc : SuiteSite) : Status :=
  if !doc.siteCreated then .pending
  else if doc.tenant.isNone then .ready
  else if doc.suiteConfigured then .active
  else .assigned

/-- What a write makes of a row, or of a document, where the job has `doc` in memory. -/
def Write.apply (write : Write) (doc row : SuiteSite) : SuiteSite :=
  match write with
  | .creating => { row with status := .creating }
  | .reroll => { row with status := .pending }
  | .created =>
      { row with siteCreated := true, status := if doc.tenant.isSome then .assigned else .ready }
  | .configuring => { row with status := .configuring }
  | .configured => { row with suiteConfigured := true }
  | .activate => { row with status := .active }
  | .fail => { row with status := .failed }
  | .resume => { row with status := resumeStatus doc }
  | .dropping => { row with status := .dropping }
  | .dropped => { row with status := .dropped, label := none }

/-- The writes of the step that is for a status (`STEPS`), of `retry` and of `drop`. -/
def writesAt : Status → List Write
  | .pending | .creating => [.creating, .reroll, .created, .fail, .dropping]
  | .assigned | .configuring => [.configuring, .configured, .activate, .fail, .dropping]
  | .active => [.fail, .dropping]
  | .ready => [.dropping]
  | .failed => [.resume, .dropping]
  | .dropping => [.dropping, .dropped]
  | .dropped => []

/-- A job: the document in memory, and what its transaction has written, each with the document of
that moment. -/
structure Job where
  doc : SuiteSite
  written : List (Write × SuiteSite)

/-- The row once the writes are committed, the first one first. -/
def applyAll (written : List (Write × SuiteSite)) (row : SuiteSite) : SuiteSite :=
  written.foldl (fun row entry => entry.1.apply entry.2 row) row

/-! ## Calls -/

/-- Where a call of `claim_site` stands. -/
inductive Phase
  /-- Before the select. -/
  | calling
  /-- A ready site is locked. -/
  | locked (site : String)
  /-- The site is written, and returned. -/
  | claimed (site : String)
  /-- A new site is inserted, and returned. -/
  | inserted (row : SuiteSite)
  /-- The call or its caller raised: the step is undone, the locks stay to the end. -/
  | undone
  | closed
  deriving DecidableEq

structure Call where
  tenant : String
  label : String
  region : String
  view : ReadView Sites
  phase : Phase

/-- Who has a row locked. -/
inductive Owner (T J : Type*)
  | call (id : T)
  | job (id : J)
  deriving DecidableEq

/-- What a call returned, once its transaction is committed. -/
structure Returned (T : Type*) where
  call : T
  tenant : String
  site : String

/-- The committed sites, the row locks, the calls and the jobs; and what the calls returned. -/
structure State (T J : Type*) where
  sites : Sites
  locks : String → Option (Owner T J)
  calls : T → Option Call
  jobs : J → Option Job
  returned : List (Returned T)

variable {T J : Type*} [DecidableEq T] [DecidableEq J]

def State.initial (sites : Sites) : State T J := ⟨sites, fun _ => none, fun _ => none, fun _ => none, []⟩

/-- The filter of `claim_site`. -/
def isClaimable (region : String) (row : SuiteSite) : Bool :=
  row.region = region && row.status = .ready && row.tenant.isNone

/-- **The locking read** (`for_update`, `skip_locked`, `order_by creation asc`). -/
def selectReady (s : State T J) (region : String) : Option SuiteSite :=
  (s.sites.rows.filter fun row => isClaimable region row && (s.locks row.name).isNone).argmin
    SuiteSite.creation

/-- A claimed site, as it is written. -/
def claimRow (call : Call) (row : SuiteSite) : SuiteSite :=
  { row with tenant := some call.tenant, label := some call.label, status := .assigned }

/-- The label of a site is unique. -/
def isLabelFree (sites : Sites) (label : String) : Bool :=
  sites.rows.all fun row => row.label ≠ some label

inductive Action (T J : Type*)
  /-- A job or an operator gets to `claim_site`. -/
  | call (id : T) (tenant label region : String)
  /-- A plain read of the transaction. -/
  | read (id : T)
  | select (id : T)
  /-- `get_doc` and `db_set`. -/
  | write (id : T)
  /-- No site was found: a new one, under a name of its own. -/
  | insert (id : T) (name : String) (creation : ℕ)
  | undo (id : T)
  /-- The end of the call's transaction. -/
  | commit (id : T)
  /-- `fill_pool`. -/
  | pool (name region : String) (creation : ℕ)
  /-- A job loads its site and locks it. -/
  | load (id : J) (site : String)
  /-- A site loaded without a lock. -/
  | peek (id : J) (site : String)
  | jobWrite (id : J) (write : Write)
  /-- `undo_step` of a job. -/
  | jobUndo (id : J)
  /-- `checkpoint`, and the commit after a step: the row is let go, the document kept. -/
  | checkpoint (id : J)

/-- A call moved on. -/
def State.setCall (s : State T J) (id : T) (call : Call) : State T J :=
  { s with calls := Function.update s.calls id (some call) }

/-- The rows someone had locked are free. -/
def State.release (s : State T J) (owner : Owner T J) : State T J :=
  { s with locks := fun row => if s.locks row = some owner then none else s.locks row }

/-- The row is locked by nobody else. -/
def State.mayLock (s : State T J) (owner : Owner T J) (site : String) : Bool :=
  (s.locks site).all (· = owner)

/-- A row is locked. -/
def State.lock (s : State T J) (owner : Owner T J) (site : String) : State T J :=
  { s with locks := Function.update s.locks site (some owner) }

/-- A new site, for a tenant or for the pool. -/
def newSite (name region : String) (tenant label : Option String) (creation : ℕ) : SuiteSite :=
  ⟨name, region, .pending, tenant, label, false, false, creation⟩

/-- **One step of the system.** -/
def step (s : State T J) : Action T J → Option (State T J)
  | .call id tenant label region =>
      match s.calls id with
      | none => some (s.setCall id ⟨tenant, label, region, .unopened, .calling⟩)
      | some _ => none
  | .read id =>
      (s.calls id).map fun call => s.setCall id { call with view := call.view.read s.sites }
  | .select id =>
      (s.calls id).bind fun call =>
        if call.phase = .calling then
          (selectReady s call.region).map fun row =>
            (s.setCall id { call with phase := .locked row.name }).lock (.call id) row.name
        else none
  | .write id =>
      (s.calls id).bind fun call =>
        match call.phase with
        | .locked site =>
            -- The document is loaded in the call's view, which may be older than the row.
            if (Keyed.get (call.view.sees s.sites) site).isSome ∧ isLabelFree s.sites call.label then
              some (s.setCall id { call with view := call.view.read s.sites, phase := .claimed site })
            else none
        | _ => none
  | .insert id name creation =>
      (s.calls id).bind fun call =>
        if call.phase = .calling ∧ (selectReady s call.region).isNone ∧
            isLabelFree s.sites call.label then
          let row := newSite name call.region (some call.tenant) (some call.label) creation
          some (s.setCall id { call with phase := .inserted row })
        else none
  | .undo id =>
      (s.calls id).bind fun call =>
        if call.phase = .closed then none else some (s.setCall id { call with phase := .undone })
  | .commit id =>
      (s.calls id).bind fun call =>
        let ended := (s.setCall id { call with phase := .closed }).release (.call id)
        match call.phase with
        | .claimed site =>
            (Keyed.get s.sites site).map fun row =>
              { ended with
                sites := Keyed.put s.sites (claimRow call row)
                returned := ⟨id, call.tenant, site⟩ :: s.returned }
        | .inserted row =>
            (Keyed.insert s.sites row).map fun sites =>
              { ended with sites := sites, returned := ⟨id, call.tenant, row.name⟩ :: s.returned }
        | .undone => some ended
        | _ => none
  | .pool name region creation =>
      (Keyed.insert s.sites (newSite name region none none creation)).map fun sites =>
        { s with sites := sites }
  | .load id site =>
      match s.jobs id, Keyed.get s.sites site with
      | none, some doc =>
          if s.mayLock (.job id) site then
            some ({ s with jobs := Function.update s.jobs id (some ⟨doc, []⟩) }.lock (.job id) site)
          else none
      | _, _ => none
  | .peek id site =>
      match s.jobs id, Keyed.get s.sites site with
      | none, some doc => some { s with jobs := Function.update s.jobs id (some ⟨doc, []⟩) }
      | _, _ => none
  | .jobWrite id write =>
      (s.jobs id).bind fun job =>
        -- The write takes the row's lock where a checkpoint has let it go.
        if write ∈ writesAt job.doc.status ∧ s.mayLock (.job id) job.doc.name then
          let job' : Job := ⟨write.apply job.doc job.doc, job.written ++ [(write, job.doc)]⟩
          some ({ s with jobs := Function.update s.jobs id (some job') }.lock (.job id) job.doc.name)
        else none
  | .jobUndo id =>
      (s.jobs id).map fun job =>
        { s with jobs := Function.update s.jobs id (some { job with written := [] }) }
  | .checkpoint id =>
      (s.jobs id).bind fun job =>
        (Keyed.get s.sites job.doc.name).map fun row =>
          { s with
            sites := Keyed.put s.sites (applyAll job.written row)
            jobs := Function.update s.jobs id (some { job with written := [] }) }.release (.job id)

/-! ## What a step does -/

/-- **What each step can do**, with its guards. -/
inductive Steps (s : State T J) : Action T J → State T J → Prop
  | call (id : T) (tenant label region : String) :
      Steps s (.call id tenant label region)
        (s.setCall id ⟨tenant, label, region, .unopened, .calling⟩)
  | read (id : T) (call : Call) : s.calls id = some call →
      Steps s (.read id) (s.setCall id { call with view := call.view.read s.sites })
  | select (id : T) (call : Call) (row : SuiteSite) : s.calls id = some call →
      selectReady s call.region = some row →
      Steps s (.select id)
        ((s.setCall id { call with phase := .locked row.name }).lock (.call id) row.name)
  | write (id : T) (call : Call) (site : String) : s.calls id = some call →
      call.phase = .locked site →
      Steps s (.write id)
        (s.setCall id { call with view := call.view.read s.sites, phase := .claimed site })
  | insert (id : T) (call : Call) (name : String) (creation : ℕ) (row : SuiteSite) :
      s.calls id = some call → row.tenant = some call.tenant →
      Steps s (.insert id name creation) (s.setCall id { call with phase := .inserted row })
  | undo (id : T) (call : Call) : s.calls id = some call →
      Steps s (.undo id) (s.setCall id { call with phase := .undone })
  | commitClaim (id : T) (call : Call) (site : String) (row : SuiteSite) : s.calls id = some call →
      call.phase = .claimed site → Keyed.get s.sites site = some row →
      Steps s (.commit id) { (s.setCall id { call with phase := .closed }).release (.call id) with
        sites := Keyed.put s.sites (claimRow call row)
        returned := ⟨id, call.tenant, site⟩ :: s.returned }
  | commitInsert (id : T) (call : Call) (row : SuiteSite) (sites : Sites) : s.calls id = some call →
      call.phase = .inserted row → Keyed.insert s.sites row = some sites →
      Steps s (.commit id) { (s.setCall id { call with phase := .closed }).release (.call id) with
        sites := sites
        returned := ⟨id, call.tenant, row.name⟩ :: s.returned }
  | commitUndone (id : T) (call : Call) : s.calls id = some call →
      Steps s (.commit id) ((s.setCall id { call with phase := .closed }).release (.call id))
  | pool (name region : String) (creation : ℕ) (sites : Sites) :
      Keyed.insert s.sites (newSite name region none none creation) = some sites →
      Steps s (.pool name region creation) { s with sites := sites }
  | load (id : J) (site : String) (doc : SuiteSite) : s.jobs id = none →
      Keyed.get s.sites site = some doc → s.mayLock (.job id) site →
      Steps s (.load id site)
        ({ s with jobs := Function.update s.jobs id (some ⟨doc, []⟩) }.lock (.job id) site)
  | peek (id : J) (site : String) (doc : SuiteSite) : s.jobs id = none →
      Steps s (.peek id site) { s with jobs := Function.update s.jobs id (some ⟨doc, []⟩) }
  | jobWrite (id : J) (write : Write) (job : Job) : s.jobs id = some job →
      s.mayLock (.job id) job.doc.name →
      Steps s (.jobWrite id write) ({ s with jobs := Function.update s.jobs id (some
        ⟨write.apply job.doc job.doc, job.written ++ [(write, job.doc)]⟩) }.lock (.job id) job.doc.name)
  | jobUndo (id : J) (job : Job) : s.jobs id = some job →
      Steps s (.jobUndo id)
        { s with jobs := Function.update s.jobs id (some { job with written := [] }) }
  | checkpoint (id : J) (job : Job) (row : SuiteSite) : s.jobs id = some job →
      Keyed.get s.sites job.doc.name = some row →
      Steps s (.checkpoint id) ({ s with
        sites := Keyed.put s.sites (applyAll job.written row)
        jobs := Function.update s.jobs id (some { job with written := [] }) }.release (.job id))

theorem steps_of_step {s s' : State T J} {action : Action T J} (taken : step s action = some s') :
    Steps s action s' := by
  cases action with
  | call id tenant label region =>
    simp only [step] at taken
    split at taken
    case h_1 =>
      obtain rfl := Option.some.inj taken
      exact .call id tenant label region
    case h_2 => cases taken
  | read id =>
    obtain ⟨call, here, rfl⟩ := Option.map_eq_some_iff.mp taken
    exact .read id call here
  | select id =>
    obtain ⟨call, here, taken⟩ := Option.bind_eq_some_iff.mp taken
    split at taken
    case isTrue =>
      obtain ⟨row, found, rfl⟩ := Option.map_eq_some_iff.mp taken
      exact .select id call row here found
    case isFalse => cases taken
  | write id =>
    obtain ⟨call, here, taken⟩ := Option.bind_eq_some_iff.mp taken
    split at taken
    case h_1 site phase =>
      split at taken
      case isTrue =>
        obtain rfl := Option.some.inj taken
        exact .write id call site here phase
      case isFalse => cases taken
    case h_2 => cases taken
  | insert id name creation =>
    obtain ⟨call, here, taken⟩ := Option.bind_eq_some_iff.mp taken
    split at taken
    case isTrue =>
      obtain rfl := Option.some.inj taken
      exact .insert id call name creation _ here rfl
    case isFalse => cases taken
  | undo id =>
    obtain ⟨call, here, taken⟩ := Option.bind_eq_some_iff.mp taken
    split at taken
    case isTrue => cases taken
    case isFalse =>
      obtain rfl := Option.some.inj taken
      exact .undo id call here
  | commit id =>
    obtain ⟨call, here, taken⟩ := Option.bind_eq_some_iff.mp taken
    simp only at taken
    split at taken
    case h_1 site phase =>
      obtain ⟨row, found, rfl⟩ := Option.map_eq_some_iff.mp taken
      exact .commitClaim id call site row here phase found
    case h_2 row phase =>
      obtain ⟨sites, inserted, rfl⟩ := Option.map_eq_some_iff.mp taken
      exact .commitInsert id call row sites here phase inserted
    case h_3 =>
      obtain rfl := Option.some.inj taken
      exact .commitUndone id call here
    case h_4 => cases taken
  | pool name region creation =>
    obtain ⟨sites, inserted, rfl⟩ := Option.map_eq_some_iff.mp taken
    exact .pool name region creation sites inserted
  | load id site =>
    simp only [step] at taken
    split at taken
    case h_1 doc idle found =>
      split at taken
      case isTrue free =>
        obtain rfl := Option.some.inj taken
        exact .load id site doc idle found free
      case isFalse => cases taken
    case h_2 => cases taken
  | peek id site =>
    simp only [step] at taken
    split at taken
    case h_1 doc idle found =>
      obtain rfl := Option.some.inj taken
      exact .peek id site doc idle
    case h_2 => cases taken
  | jobWrite id write =>
    obtain ⟨job, here, taken⟩ := Option.bind_eq_some_iff.mp taken
    split at taken
    case isTrue may =>
      obtain rfl := Option.some.inj taken
      exact .jobWrite id write job here may.2
    case isFalse => cases taken
  | jobUndo id =>
    obtain ⟨job, here, rfl⟩ := Option.map_eq_some_iff.mp taken
    exact .jobUndo id job here
  | checkpoint id =>
    obtain ⟨job, here, taken⟩ := Option.bind_eq_some_iff.mp taken
    obtain ⟨row, found, rfl⟩ := Option.map_eq_some_iff.mp taken
    exact .checkpoint id job row here found

/-! ## The invariant -/

/-- The ready site a call has locked. -/
def Phase.holds : Phase → Option String
  | .locked site => some site
  | .claimed site => some site
  | _ => none

/-- **A site that is ready and nobody's**, among the committed ones. -/
def IsPooled (sites : Sites) (site : String) : Prop :=
  ∃ row, Keyed.get sites site = some row ∧ row.status = .ready ∧ row.tenant = none

/-- **No tenant is overwritten** between two moments. -/
def TenantsKept (before after : Sites) : Prop :=
  ∀ site row, Keyed.get before site = some row →
    ∃ row', Keyed.get after site = some row' ∧ ∀ tenant, row.tenant = some tenant → row'.tenant = some tenant

/-- **The invariant.** -/
structure Pooled (s : State T J) : Prop where
  held : ∀ id call site, s.calls id = some call → call.phase.holds = some site →
    s.locks site = some (.call id) ∧ IsPooled s.sites site
  made : ∀ id call row, s.calls id = some call → call.phase = .inserted row →
    row.tenant = some call.tenant
  locked : ∀ id job, s.jobs id = some job → job.written ≠ [] →
    s.locks job.doc.name = some (.job id)
  own : ∀ returned ∈ s.returned, ∃ row, Keyed.get s.sites returned.site = some row ∧
    row.tenant = some returned.tenant
  once : (s.returned.map Returned.site).Nodup

theorem TenantsKept.refl (sites : Sites) : TenantsKept sites sites := by
  intro site row found
  exact ⟨row, found, fun _ same => same⟩

theorem TenantsKept.trans {first second third : Sites} (before : TenantsKept first second)
    (after : TenantsKept second third) : TenantsKept first third := by
  intro site row found
  obtain ⟨row', found', kept⟩ := before site row found
  obtain ⟨row'', found'', kept'⟩ := after site row' found'
  exact ⟨row'', found'', fun tenant same => kept' tenant (kept tenant same)⟩

theorem tenantsKept_insert {sites left : Sites} {row : SuiteSite}
    (inserted : Keyed.insert sites row = some left) : TenantsKept sites left := by
  intro site old found
  obtain ⟨fresh, members⟩ := Keyed.mem_insert inserted
  obtain ⟨member, named⟩ := Keyed.get_eq_some.mp found
  exact ⟨old, Keyed.get_eq_some.mpr ⟨(members old).mpr (.inr member), named⟩, fun _ same => same⟩

theorem tenantsKept_put {sites : Sites} {old : SuiteSite} (row : SuiteSite)
    (found : Keyed.get sites row.name = some old)
    (kept : ∀ tenant, old.tenant = some tenant → row.tenant = some tenant) :
    TenantsKept sites (Keyed.put sites row) := by
  intro site before here
  have after := Keyed.get_put (k := site) found
  by_cases same : site = row.name
  · subst same
    obtain rfl := Option.some.inj (found.symm.trans here)
    rw [if_pos rfl] at after
    exact ⟨row, after, kept⟩
  · rw [if_neg same] at after
    exact ⟨before, after.trans here, fun _ tenant => tenant⟩

/-- A pooled site stays one where another row is written. -/
theorem IsPooled.put {sites : Sites} {site : String} {old : SuiteSite} (here : IsPooled sites site)
    (row : SuiteSite) (found : Keyed.get sites row.name = some old) (different : site ≠ row.name) :
    IsPooled (Keyed.put sites row) site := by
  obtain ⟨own, own', ready⟩ := here
  refine ⟨own, (Keyed.get_put found).trans ?_, ready⟩
  rw [if_neg different]
  exact own'

theorem IsPooled.insert {sites left : Sites} {site : String} {row : SuiteSite} (here : IsPooled sites site)
    (inserted : Keyed.insert sites row = some left) : IsPooled left site := by
  obtain ⟨own, found, ready⟩ := here
  obtain ⟨member, named⟩ := Keyed.get_eq_some.mp found
  obtain ⟨fresh, members⟩ := Keyed.mem_insert inserted
  exact ⟨own, Keyed.get_eq_some.mpr ⟨(members own).mpr (.inr member), named⟩, ready⟩

theorem apply_kept (write : Write) (doc row : SuiteSite) :
    (write.apply doc row).name = row.name ∧ (write.apply doc row).tenant = row.tenant := by
  cases write <;> exact ⟨rfl, rfl⟩

theorem applyAll_kept (written : List (Write × SuiteSite)) (row : SuiteSite) :
    (applyAll written row).name = row.name ∧ (applyAll written row).tenant = row.tenant := by
  induction written generalizing row with
  | nil => exact ⟨rfl, rfl⟩
  | cons entry rest ih =>
    obtain ⟨name, tenant⟩ := ih (entry.1.apply entry.2 row)
    obtain ⟨name', tenant'⟩ := apply_kept entry.1 entry.2 row
    exact ⟨name.trans name', tenant.trans tenant'⟩

variable {s s' : State T J}

theorem selectReady_eq_some {region : String} {row : SuiteSite} (found : selectReady s region = some row) :
    IsPooled s.sites row.name ∧ s.locks row.name = none := by
  have member := List.argmin_mem found
  obtain ⟨there, free⟩ := List.mem_filter.mp member
  simp only [isClaimable, Bool.and_eq_true, decide_eq_true_eq, Option.isNone_iff_eq_none] at free
  obtain ⟨⟨⟨-, ready⟩, nobody⟩, unlocked⟩ := free
  exact ⟨⟨row, Keyed.get_eq_some.mpr ⟨there, rfl⟩, ready, nobody⟩, unlocked⟩

theorem Pooled.setCall (here : Pooled s) (id : T) (call : Call)
    (held : ∀ site, call.phase.holds = some site →
      s.locks site = some (.call id) ∧ IsPooled s.sites site)
    (made : ∀ row, call.phase = .inserted row → row.tenant = some call.tenant) :
    Pooled (s.setCall id call) := by
  refine ⟨?_, ?_, here.locked, here.own, here.once⟩
  · intro other call' site there holds
    rcases update_eq_some there with ⟨rfl, rfl⟩ | ⟨-, there⟩
    · exact held site holds
    · exact here.held other call' site there holds
  · intro other call' row there inserted
    rcases update_eq_some there with ⟨rfl, rfl⟩ | ⟨-, there⟩
    · exact made row inserted
    · exact here.made other call' row there inserted

theorem Pooled.setJob (here : Pooled s) (id : J) (job : Job)
    (locked : job.written ≠ [] → s.locks job.doc.name = some (.job id)) :
    Pooled { s with jobs := Function.update s.jobs id (some job) } := by
  refine ⟨here.held, here.made, ?_, here.own, here.once⟩
  intro other job' there wrote
  rcases update_eq_some there with ⟨rfl, rfl⟩ | ⟨-, there⟩
  · exact locked wrote
  · exact here.locked other job' there wrote

/-- **A row locked** by someone who may. -/
theorem Pooled.lock (here : Pooled s) (owner : Owner T J) (site : String) (may : s.mayLock owner site) :
    Pooled (s.lock owner site) := by
  have kept : ∀ row other, s.locks row = some other → (s.lock owner site).locks row = some other := by
    intro row other has
    show Function.update s.locks site (some owner) row = some other
    by_cases same : row = site
    · subst same
      rw [State.mayLock, has] at may
      rw [Function.update_self, ← of_decide_eq_true may]
    · rw [Function.update_of_ne same]
      exact has
  refine ⟨?_, here.made, ?_, here.own, here.once⟩
  · intro id call row there holds
    obtain ⟨has, pooled⟩ := here.held id call row there holds
    exact ⟨kept row _ has, pooled⟩
  · intro id job there wrote
    exact kept _ _ (here.locked id job there wrote)

theorem Pooled.release (here : Pooled s) (owner : Owner T J)
    (calls : ∀ id call, s.calls id = some call → call.phase.holds ≠ none → owner ≠ .call id)
    (jobs : ∀ id job, s.jobs id = some job → job.written ≠ [] → owner ≠ .job id) :
    Pooled (s.release owner) := by
  have kept : ∀ row other, s.locks row = some other → owner ≠ other →
      (s.release owner).locks row = some other := by
    intro row other has different
    show (if s.locks row = some owner then none else s.locks row) = some other
    rw [has, if_neg fun same => different (Option.some.inj same).symm]
  refine ⟨?_, here.made, ?_, here.own, here.once⟩
  · intro id call row there holds
    obtain ⟨has, pooled⟩ := here.held id call row there holds
    exact ⟨kept row _ has (calls id call there (by rw [holds]; exact Option.some_ne_none row)), pooled⟩
  · intro id job there wrote
    exact kept _ _ (here.locked id job there wrote) (jobs id job there wrote)

/-- **Other committed sites**, where the ones that are held stay pooled and no tenant is overwritten. -/
theorem Pooled.sites (here : Pooled s) (sites : Sites) (kept : TenantsKept s.sites sites)
    (held : ∀ id call site, s.calls id = some call → call.phase.holds = some site →
      IsPooled s.sites site → IsPooled sites site) :
    Pooled { s with sites := sites } := by
  refine ⟨?_, here.made, here.locked, ?_, here.once⟩
  · intro id call site there holds
    obtain ⟨has, pooled⟩ := here.held id call site there holds
    exact ⟨has, held id call site there holds pooled⟩
  · intro returned member
    obtain ⟨row, found, tenant⟩ := here.own returned member
    obtain ⟨row', found', kept⟩ := kept returned.site row found
    exact ⟨row', found', kept _ tenant⟩

/-- **A call returned** a site that none before it has. -/
theorem Pooled.returns (here : Pooled s) (entry : Returned T)
    (own : ∃ row, Keyed.get s.sites entry.site = some row ∧ row.tenant = some entry.tenant)
    (fresh : ∀ earlier ∈ s.returned, earlier.site ≠ entry.site) :
    Pooled { s with returned := entry :: s.returned } := by
  refine ⟨here.held, here.made, here.locked, ?_, ?_⟩
  · intro returned member
    rcases List.mem_cons.mp member with rfl | member
    · exact own
    · exact here.own returned member
  · show ((entry :: s.returned).map Returned.site).Nodup
    rw [List.map_cons, List.nodup_cons]
    refine ⟨?_, here.once⟩
    intro inside
    obtain ⟨earlier, member, same⟩ := List.mem_map.mp inside
    exact fresh earlier member same

theorem Pooled.setCall_idle (here : Pooled s) (id : T) (call : Call) (nothing : call.phase.holds = none)
    (new : ∀ row, call.phase ≠ .inserted row) : Pooled (s.setCall id call) := by
  refine here.setCall id call ?_ ?_
  · intro site holds
    rw [nothing] at holds
    cases holds
  · intro row inserted
    exact absurd inserted (new row)

/-- The end of a call's transaction, apart from what it commits. -/
theorem Pooled.ended (here : Pooled s) (id : T) (call : Call) :
    Pooled ((s.setCall id { call with phase := .closed }).release (.call id)) := by
  have closed := here.setCall_idle id { call with phase := .closed } rfl fun _ => Phase.noConfusion
  refine closed.release (.call id) ?_ ?_
  · intro other call' there holds same
    cases same
    rcases update_eq_some there with ⟨-, rfl⟩ | ⟨different, -⟩
    · exact holds rfl
    · exact different rfl
  · intro other job there wrote same
    cases same

theorem pooled_commitClaim {id : T} {call : Call} {site : String} {row : SuiteSite} (here : Pooled s)
    (there : s.calls id = some call) (phase : call.phase = .claimed site)
    (found : Keyed.get s.sites site = some row) :
    Pooled { (s.setCall id { call with phase := .closed }).release (.call id) with
        sites := Keyed.put s.sites (claimRow call row)
        returned := ⟨id, call.tenant, site⟩ :: s.returned } ∧
      TenantsKept s.sites (Keyed.put s.sites (claimRow call row)) := by
  obtain ⟨locked, own, found', -, nobody⟩ := here.held id call site there (by rw [phase]; rfl)
  obtain rfl := Option.some.inj (found.symm.trans found')
  obtain ⟨-, rfl⟩ := Keyed.get_eq_some.mp found
  have kept : TenantsKept s.sites (Keyed.put s.sites (claimRow call row)) := by
    refine tenantsKept_put (claimRow call row) found ?_
    intro tenant has
    rw [nobody] at has
    cases has
  have ended := here.ended id call
  have placed : Pooled { (s.setCall id { call with phase := .closed }).release (.call id) with
      sites := Keyed.put s.sites (claimRow call row) } := by
    refine ended.sites _ kept ?_
    intro other call' site' theirs holds pooled
    refine pooled.put (claimRow call row) found ?_
    rintro rfl
    obtain ⟨has, -⟩ := ended.held other call' _ theirs holds
    have free : ((s.setCall id { call with phase := .closed }).release (.call id)).locks row.name = none :=
      if_pos locked
    cases free.symm.trans has
  refine ⟨placed.returns ⟨id, call.tenant, row.name⟩ ?_ ?_, kept⟩
  · have written : Keyed.get (Keyed.put s.sites (claimRow call row)) row.name =
        if row.name = (claimRow call row).name then some (claimRow call row)
        else Keyed.get s.sites row.name := Keyed.get_put found
    exact ⟨claimRow call row, written.trans (if_pos rfl), rfl⟩
  · intro earlier member same
    obtain ⟨theirs, found'', tenant⟩ := here.own earlier member
    rw [same] at found''
    obtain rfl := Option.some.inj (found.symm.trans found'')
    rw [nobody] at tenant
    cases tenant

theorem pooled_commitInsert {id : T} {call : Call} {row : SuiteSite} {sites : Sites} (here : Pooled s)
    (there : s.calls id = some call) (phase : call.phase = .inserted row)
    (inserted : Keyed.insert s.sites row = some sites) :
    Pooled { (s.setCall id { call with phase := .closed }).release (.call id) with
        sites := sites
        returned := ⟨id, call.tenant, row.name⟩ :: s.returned } := by
  obtain ⟨fresh, members⟩ := Keyed.mem_insert inserted
  have placed : Pooled { (s.setCall id { call with phase := .closed }).release (.call id) with
      sites := sites } := by
    refine (here.ended id call).sites sites (tenantsKept_insert inserted) ?_
    intro other call' site theirs holds pooled
    exact IsPooled.insert pooled inserted
  refine placed.returns ⟨id, call.tenant, row.name⟩ ?_ ?_
  · exact ⟨row, Keyed.get_eq_some.mpr ⟨(members row).mpr (.inl rfl), rfl⟩, here.made id call row there phase⟩
  · intro earlier member same
    obtain ⟨theirs, found, -⟩ := here.own earlier member
    obtain ⟨inside, named⟩ := Keyed.get_eq_some.mp found
    exact fresh theirs inside (named.trans same)

theorem pooled_checkpoint {id : J} {job : Job} {row : SuiteSite} (here : Pooled s)
    (there : s.jobs id = some job) (found : Keyed.get s.sites job.doc.name = some row) :
    Pooled ({ s with
        sites := Keyed.put s.sites (applyAll job.written row)
        jobs := Function.update s.jobs id (some { job with written := [] }) }.release (.job id)) ∧
      TenantsKept s.sites (Keyed.put s.sites (applyAll job.written row)) := by
  obtain ⟨named, tenant⟩ := applyAll_kept job.written row
  obtain ⟨-, own⟩ := Keyed.get_eq_some.mp found
  have found' : Keyed.get s.sites (applyAll job.written row).name = some row := by
    rw [named, own]
    exact found
  have kept : TenantsKept s.sites (Keyed.put s.sites (applyAll job.written row)) := by
    refine tenantsKept_put _ found' ?_
    intro given has
    rw [tenant]
    exact has
  have written : Pooled { s with sites := Keyed.put s.sites (applyAll job.written row) } := by
    refine here.sites _ kept ?_
    intro other call site theirs holds pooled
    by_cases nothing : job.written = []
    · rw [nothing]
      obtain ⟨mine, mine', ready⟩ := pooled
      have same : Keyed.get s.sites row.name = some row := by
        rw [own]
        exact found
      refine ⟨mine, (Keyed.get_put same).trans ?_, ready⟩
      split
      · next same =>
        rw [same, own, found] at mine'
        exact mine'
      · exact mine'
    · refine pooled.put _ found' ?_
      rintro rfl
      have mine := here.locked id job there nothing
      obtain ⟨has, -⟩ := here.held other call _ theirs holds
      rw [named, own, mine] at has
      cases has
  refine ⟨?_, kept⟩
  refine (written.setJob id { job with written := [] } (absurd rfl)).release (.job id) ?_ ?_
  · intro other call theirs holds same
    cases same
  · intro other job' theirs wrote same
    cases same
    rcases update_eq_some theirs with ⟨-, rfl⟩ | ⟨different, -⟩
    · exact wrote rfl
    · exact different rfl

theorem pooled_step {action : Action T J} (here : Pooled s) (steps : Steps s action s') :
    Pooled s' ∧ TenantsKept s.sites s'.sites := by
  cases steps with
  | call id tenant label region =>
    exact ⟨here.setCall_idle id _ rfl fun _ => Phase.noConfusion, .refl _⟩
  | read id call there =>
    exact ⟨here.setCall id _ (here.held id call · there) (here.made id call · there), .refl _⟩
  | select id call row there found =>
    obtain ⟨pooled, free⟩ := selectReady_eq_some found
    refine ⟨?_, .refl _⟩
    have locked := here.lock (.call id) row.name (by rw [State.mayLock, free]; rfl)
    refine locked.setCall id { call with phase := .locked row.name } ?_ fun _ => Phase.noConfusion
    intro site same
    obtain rfl := Option.some.inj same
    exact ⟨Function.update_self _ _ _, pooled⟩
  | write id call site there phase =>
    refine ⟨here.setCall id _ ?_ fun _ => Phase.noConfusion, .refl _⟩
    intro site' same
    obtain rfl := Option.some.inj same
    exact here.held id call site there (by rw [phase]; rfl)
  | insert id call name creation row there tenant =>
    refine ⟨here.setCall id _ ?_ ?_, .refl _⟩
    · intro site holds
      cases holds
    · intro row' same
      cases same
      exact tenant
  | undo id call there => exact ⟨here.setCall_idle id _ rfl fun _ => Phase.noConfusion, .refl _⟩
  | commitClaim id call site row there phase found => exact pooled_commitClaim here there phase found
  | commitInsert id call row sites there phase inserted =>
    exact ⟨pooled_commitInsert here there phase inserted, tenantsKept_insert inserted⟩
  | commitUndone id call there => exact ⟨here.ended id call, .refl _⟩
  | pool name region creation sites inserted =>
    refine ⟨here.sites sites (tenantsKept_insert inserted) ?_, tenantsKept_insert inserted⟩
    intro id call site there holds pooled
    exact IsPooled.insert pooled inserted
  | load id site doc idle found free =>
    exact ⟨(here.lock (.job id) site free).setJob id ⟨doc, []⟩ (absurd rfl), .refl _⟩
  | peek id site doc idle => exact ⟨here.setJob id ⟨doc, []⟩ (absurd rfl), .refl _⟩
  | jobWrite id write job there free =>
    refine ⟨?_, .refl _⟩
    refine (here.lock (.job id) job.doc.name free).setJob id
      ⟨write.apply job.doc job.doc, job.written ++ [(write, job.doc)]⟩ ?_
    intro _
    show Function.update s.locks job.doc.name (some (.job id)) (write.apply job.doc job.doc).name = _
    rw [(apply_kept write job.doc job.doc).1, Function.update_self]
  | jobUndo id job there => exact ⟨here.setJob id _ (absurd rfl), .refl _⟩
  | checkpoint id job row there found => exact pooled_checkpoint here there found

/-! ## One tenant each -/

theorem pooled_initial (sites : Sites) : Pooled (State.initial sites : State T J) := by
  refine ⟨?_, ?_, ?_, ?_, List.nodup_nil⟩
  · intro id call site there
    cases there
  · intro id call row there
    cases there
  · intro id job there
    cases there
  · intro returned member
    cases member

/-- **A ready site goes to one tenant**, in every interleaving of calls, of the jobs of the sites and of
the pool's. In every state reached, a site that a call has locked is ready and nobody's among the
committed ones; each call that returned has its own tenant there; no two returned one site; and
whatever happens next, no tenant that is committed is overwritten. -/
theorem ready_site_claimed_once (sites : Sites) (s s' : State T J)
    (reached : Reaches step anyStep (State.initial sites) s) (later : Reaches step anyStep s s') :
    (∀ id call site, s.calls id = some call → call.phase.holds = some site → IsPooled s.sites site) ∧
      (∀ returned ∈ s.returned, ∃ row, Keyed.get s.sites returned.site = some row ∧
        row.tenant = some returned.tenant) ∧
      (s.returned.map Returned.site).Nodup ∧ TenantsKept s.sites s'.sites := by
  have pooled : Pooled s := by
    refine reached.invariant Pooled (pooled_initial sites) ?_
    intro here there action pooled _ taken
    exact (pooled_step pooled (steps_of_step taken)).1
  refine ⟨fun id call site there holds => (pooled.held id call site there holds).2, pooled.own,
    pooled.once, ?_⟩
  have both : Pooled s' ∧ TenantsKept s.sites s'.sites := by
    refine later.invariant (fun here => Pooled here ∧ TenantsKept s.sites here.sites)
      ⟨pooled, .refl _⟩ ?_
    intro here there action both _ taken
    obtain ⟨pooled', kept⟩ := pooled_step both.1 (steps_of_step taken)
    exact ⟨pooled', both.2.trans kept⟩
  exact both.2

/-- One site in the pool and one that Pilot is creating. -/
def twoSites : Sites :=
  ⟨[⟨"a", "eu", .ready, none, none, true, false, 1⟩, ⟨"b", "eu", .creating, none, none, false, false, 2⟩],
    by decide⟩

/-- Two calls at once: the second one skips the site the first one has locked, finds the one that its job
has marked as created meanwhile, and each site is its own tenant's to the end. -/
theorem ready_site_claimed_once_each :
    ∃ s s' : State ℕ ℕ, Reaches step anyStep (State.initial twoSites) s ∧ Reaches step anyStep s s' ∧
      s.returned.map (fun entry => (entry.tenant, entry.site)) = [("second", "b"), ("first", "a")] ∧
      (s.returned.map Returned.site).Nodup ∧ TenantsKept s.sites s'.sites := by
  have seen : (run step (State.initial twoSites : State ℕ ℕ)
      [.load 0 "b", .checkpoint 0, .call 1 "first" "acme" "eu", .call 2 "second" "beta" "eu", .select 1,
        .jobWrite 0 .created, .checkpoint 0, .read 2, .select 2, .write 1, .write 2, .commit 1,
        .commit 2]).map (fun s => s.returned.map fun entry => (entry.tenant, entry.site)) =
      some [("second", "b"), ("first", "a")] := by decide
  obtain ⟨s, ends, returned⟩ := Option.map_eq_some_iff.mp seen
  have reached : Reaches step anyStep (State.initial twoSites) s :=
    reaches_of_run (runMeets_of_forall fun _ _ _ => trivial) ends
  obtain ⟨-, -, once, kept⟩ := ready_site_claimed_once twoSites s s reached .start
  exact ⟨s, s, reached, .start, returned, once, kept⟩

end SuiteCloud.Hosting.Claims
