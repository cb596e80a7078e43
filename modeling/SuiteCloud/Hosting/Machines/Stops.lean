/-
**An error stops a server's setup.**

While a server has an error, and no operator runs one of the actions that take it up again, no job asks
Central or Pilot anything for its setup or writes what its setup has reached; whatever else runs, and of
whatever servers.

* `setup`, `Call.isAbout` — what the setup writes, and what it asks.
* `stopped` — the contract of worlds where the setup of a server stands.
* `unattended_within` — every other job stays within the bounds that leaves it.
* `error_stops_setup` — over every run.
-/

import SuiteCloud.Hosting.Machines.Runs

namespace SuiteCloud.Hosting.Machines

open SuiteCloud.Library Script

/-- What the setup of a server has reached. -/
def setup (vm : VirtualMachine) :=
  (vm.centralAction, vm.centralResourceId, vm.wildcardZone, vm.hostVerified, vm.suiteAppStatus,
    vm.suiteAppTask,
    vm.suiteAppCommit, vm.readySince)

/-- A call of the setup of a server. -/
def Call.isAbout (name : String) : Call → Prop
  | .createServer arguments => arguments.requestKey = keyOf name
  | .wildcardDomains vm | .settings vm | .setLetsencryptEmail vm _ | .listApps vm
  | .installApp vm _ _ | .getTask vm _ | .taskOutput vm _ => vm = name
  | _ => False

/-- A server with an error, and a setup. -/
def IsStopped (before : VirtualMachine) (row : Option VirtualMachine) : Prop :=
  ∃ vm, row = some vm ∧ isSet vm.error ∧ setup vm = setup before

/-- What is seen of a row while a server is stopped. -/
def Seen (name : String) (before : VirtualMachine) : ∀ key, Row key → Prop
  | .server other, row => (∀ vm, row = some vm → vm.requestKey = keyOf other) ∧
    (other = name → IsStopped before row)
  | .region _, _ => True

/-- A change that leaves a stopped server so. -/
def Spares (name : String) (before : VirtualMachine) (key : Key) (change : Row key → Row key) : Prop :=
  ∀ row, Seen name before key row → Seen name before key (change row)

section

variable (name : String) (before : VirtualMachine)

/-- **A world where the setup of a server stands.** -/
structure Stands (world : World Row Call) : Prop where
  seen : ∀ key, Seen name before key (world.rows key)
  calls : ∀ call ∈ world.calls, ¬ call.isAbout name

def stopped : Contract Row Answer where
  Holds := Stands name before
  Keeps _ _ := True
  Promised _ _ := True
  refl _ := trivial
  trans _ _ := trivial

variable {name before}

theorem stopped_steady : (stopped name before).IsSteady := by
  intro held first now others sane
  refine ⟨others.holds, ⟨fun key => ?_, others.holds.calls⟩, trivial⟩
  obtain ⟨same, -⟩ | ⟨free, -⟩ := others.seen_or key
  · rw [World.rows_merged, same]
    exact sane.merged.seen key
  · rw [World.rows_merged, free]
    exact others.holds.seen key

theorem stopped_silent (call : Call) (other : ¬ call.isAbout name) : (stopped name before).IsSilent call := by
  refine fun world stands => ⟨⟨stands.seen, fun asked member => ?_⟩, trivial, fun _ _ => trivial⟩
  obtain member | member := List.mem_append.mp member
  · exact stands.calls asked member
  · rw [List.mem_singleton.mp member]
    exact other

theorem stopped_harmless (world : World Row Call) (held : Held Row)
    (sane : (stopped name before).Sane world held)
    (key : Key) (change : Row key → Row key) (spares : Spares name before key change) :
    (stopped name before).Sane world (held.hold key (change (world.seen held key))) := by
  refine sane.set ⟨fun here => ?_, sane.merged.calls⟩ trivial
  by_cases same : here = key
  · subst same
    rw [World.rows_set_self]
    exact spares _ (sane.merged.seen here)
  · rw [World.rows_set_other _ same]
    exact sane.merged.seen here

end

/-! ## Within the bounds -/

section

variable (name : String) (before : VirtualMachine)

/-- A script that leaves the setup of a server alone. -/
abbrev Leaves {α : Type} (script : Job α) : Prop :=
  script.Within (Seen name before) (Spares name before) fun call => ¬ call.isAbout name

variable {name before} {α β : Type} {doc : Doc}

theorem leaves_asks {call : Call} {after : Answer call → Job β} (other : ¬ call.isAbout name)
    (goesOn : ∀ answer, Leaves name before (after answer)) : Leaves name before (asks call >>= after) :=
  ⟨other, goesOn⟩

theorem leaves_reply {answer : Except Raised α} {after : α → Job β}
    (goesOn : ∀ value, Leaves name before (after value)) : Leaves name before (reply answer >>= after) := by
  refine within_bind ?_ goesOn
  cases answer <;> trivial

theorem spares_map {other : String} {change : VirtualMachine → VirtualMachine}
    (key : ∀ vm, (change vm).requestKey = vm.requestKey)
    (keeps : other = name → ∀ vm, isSet vm.error → isSet (change vm).error ∧ setup (change vm) = setup vm) :
    Spares name before (.server other) (Option.map change) := by
  refine fun row seen => ⟨fun vm found => ?_, fun same => ?_⟩
  · obtain ⟨old, here, rfl⟩ := Option.map_eq_some_iff.mp found
    exact (key old).trans (seen.1 old here)
  · obtain ⟨vm, here, error, reached⟩ := seen.2 same
    obtain ⟨kept, same⟩ := keeps same vm error
    exact ⟨change vm, Option.map_eq_some_iff.mpr ⟨vm, here, rfl⟩, kept, same.trans reached⟩

theorem leaves_dbSet {change : VirtualMachine → VirtualMachine} {after : Doc → Job β}
    (key : ∀ vm, (change vm).requestKey = vm.requestKey)
    (keeps : doc.name = name → ∀ vm, isSet vm.error → isSet (change vm).error ∧ setup (change vm) = setup vm)
    (goesOn : Leaves name before (after ⟨doc.name, change doc.vm⟩)) :
    Leaves name before (doc.dbSet change >>= after) := ⟨spares_map key keeps, goesOn⟩

theorem leaves_stop {message : String} (foreign : doc.name ≠ name) : Leaves name before (stop doc message) :=
  leaves_dbSet (fun _ => rfl) (fun same => absurd same foreign) trivial

theorem leaves_catching {script : Job α} {handler : Raised → Job α} (first : Leaves name before script)
    (handled : ∀ error, Leaves name before (handler error)) : Leaves name before (script.catching handler) :=
  within_handle first (fun _ => trivial) handled

theorem leaves_noneYet {error : Raised} : Leaves name before (noneYet error : Job (Option α)) := by
  cases error <;> trivial

theorem learnProxyZone_leaves {region zone : String} : Leaves name before (learnProxyZone region zone) := by
  unfold learnProxyZone
  refine within_bind (fun _ _ => trivial) fun row => ?_
  split
  · trivial
  · exact ⟨fun _ _ => trivial, trivial⟩

theorem hostProblem_leaves {vm : VirtualMachine} {zone : Option String} {settings : PilotSettings} :
    Leaves name before (hostProblem vm zone settings) := by
  unfold hostProblem
  split
  · trivial
  split
  · trivial
  refine within_bind learnProxyZone_leaves fun proxyZone => ?_
  split
  · trivial
  split <;> trivial

/-! ### The steps of other servers -/

section

variable (foreign : doc.name ≠ name)
include foreign

theorem create_leaves (key : doc.vm.requestKey = keyOf doc.name) : Leaves name before (create doc) := by
  unfold create
  split
  · trivial
  refine leaves_asks (fun about => foreign (keyOf_injective (key.symm.trans about))) fun answer =>
    leaves_reply fun _ =>
    leaves_asks id fun other => ?_
  cases other <;> exact leaves_dbSet (fun _ => rfl) (fun same => absurd same foreign) trivial

theorem accept_leaves : Leaves name before (accept doc) := by
  unfold accept
  split
  · trivial
  refine leaves_asks id fun answer => leaves_reply fun status => ?_
  split
  · exact leaves_dbSet (fun _ => rfl) (fun same => absurd same foreign) trivial
  split
  · exact leaves_dbSet (fun _ => rfl) (fun same => absurd same foreign) trivial
  · trivial

theorem boot_leaves : Leaves name before (boot doc) := by
  unfold boot
  split
  · trivial
  refine leaves_asks id fun answer => leaves_reply fun registry => ?_
  split
  · exact leaves_asks id fun time => leaves_dbSet (fun _ => rfl) (fun same => absurd same foreign) trivial
  · trivial

theorem verifyHost_leaves : Leaves name before (verifyHost doc) := by
  unfold verifyHost
  split
  · trivial
  have stops : ∀ message, Leaves name before (stop doc message >>= fun _ => (pure false : Job Bool)) :=
    fun _ =>
    within_bind (leaves_stop foreign) fun _ => trivial
  refine within_bind ?_ fun answers => ?_
  · exact leaves_catching (leaves_asks foreign fun _ => leaves_reply fun _ => leaves_asks foreign fun _ =>
      leaves_reply fun _ => trivial) fun _ => leaves_noneYet
  split
  · refine leaves_asks id fun time => ?_
    split
    · exact stops _
    · trivial
  refine within_bind ?_ fun settings => ?_
  · refine leaves_asks id fun config => ?_
    split
    · trivial
    refine leaves_catching
      (leaves_asks foreign fun _ => leaves_reply fun _ => leaves_asks foreign fun answer => ?_)
      fun error => ?_
    · cases answer <;> trivial
    · cases error <;> trivial
  refine leaves_dbSet (fun _ => rfl) (fun same => absurd same foreign)
    (within_bind hostProblem_leaves fun problem => ?_)
  split
  · exact stops _
  · exact leaves_dbSet (fun _ => rfl) (fun same => absurd same foreign) trivial

theorem markInstalled_leaves {app : App} : Leaves name before (markInstalled doc app) :=
  leaves_dbSet (fun _ => rfl) (fun same => absurd same foreign) trivial

theorem poll_leaves {task : String} (again : ℕ) : Leaves name before (poll doc task again) := by
  induction again with
  | zero =>
    refine leaves_asks foreign fun answer => ?_
    cases answer <;> trivial
  | succ again ih =>
    refine leaves_asks foreign fun answer => leaves_reply fun status => ?_
    split
    · trivial
    · exact ih

theorem awaitInstall_leaves {task : String} : Leaves name before (awaitInstall doc task) := by
  unfold awaitInstall
  refine within_bind (leaves_asks id fun patience => poll_leaves foreign patience) fun status => ?_
  split
  · trivial
  split
  · exact leaves_asks foreign fun answer => leaves_reply fun _ =>
      leaves_dbSet (fun _ => rfl) (fun same => absurd same foreign) trivial
  refine leaves_asks foreign fun answer => leaves_reply fun apps => ?_
  split
  · exact leaves_dbSet (fun _ => rfl) (fun same => absurd same foreign) trivial
  · exact markInstalled_leaves foreign

theorem installSuite_leaves : Leaves name before (installSuite doc) := by
  unfold installSuite
  split
  · trivial
  split
  · exact awaitInstall_leaves foreign
  refine leaves_asks foreign fun answer => leaves_reply fun apps => ?_
  split
  · exact markInstalled_leaves foreign
  · refine leaves_asks id fun config => leaves_asks foreign fun answer => leaves_reply fun task =>
      leaves_dbSet (fun _ => rfl) (fun same => absurd same foreign) (awaitInstall_leaves ?_)
    exact foreign

theorem runStep_leaves (step : Step) (key : doc.vm.requestKey = keyOf doc.name) :
    Leaves name before (runStep step doc) := by
  unfold runStep
  refine within_bind (leaves_catching ?_ fun error => ?_) fun _ => trivial
  · cases step with
    | create => exact create_leaves foreign key
    | accept => exact accept_leaves foreign
    | boot => exact boot_leaves foreign
    | verifyHost => exact verifyHost_leaves foreign
    | installSuite => exact installSuite_leaves foreign
  · cases error with
    | pilotNotReady => trivial
    | unavailable => trivial
    | rejected message remediation => exact within_bind (leaves_stop foreign) fun _ => trivial
    | pilotError => exact within_bind trivial fun _ => within_bind (leaves_stop foreign) fun _ => trivial
    | other => exact within_bind trivial fun _ => within_bind (leaves_stop foreign) fun _ => trivial

end

/-! ### Jobs -/

theorem leaves_loaded {other : String} {row : Option VirtualMachine} {after : Doc → Job β}
    (goesOn : ∀ vm, row = some vm → Leaves name before (after ⟨other, vm⟩)) :
    Leaves name before (loaded other row >>= after) := by
  cases row with
  | none => trivial
  | some vm => exact goesOn vm rfl

theorem provisionFrom_leaves {other : String} (foreign : other ≠ name) (steps : List Step) :
    Leaves name before (provisionFrom other steps) := by
  induction steps with
  | nil =>
    refine fun row seen => leaves_loaded fun vm here => ?_
    dsimp only
    split
    · exact leaves_asks id fun time => leaves_dbSet (fun _ => rfl) (fun same => absurd same foreign) trivial
    · trivial
  | cons step later ih =>
    refine fun row seen => leaves_loaded fun vm here => ?_
    subst here
    split
    · trivial
    refine within_bind (runStep_leaves ?_ step (seen.1 vm rfl)) fun done => ?_
    · exact foreign
    split
    · exact ih
    · trivial

theorem provision_leaves (other : String) : Leaves name before (provision other) := by
  by_cases same : other = name
  · subst same
    refine fun row seen => leaves_loaded fun vm here => ?_
    subst here
    obtain ⟨vm', same, error, -⟩ := seen.2 rfl
    cases same
    have isHeld : vm.isHeld = true := decide_eq_true (.inl error)
    rw [if_pos isHeld]
    trivial
  · exact provisionFrom_leaves same _

theorem loadAll_leaves (names : List String) : Leaves name before (loadAll names) := by
  induction names with
  | nil => trivial
  | cons other names ih =>
    exact fun row seen => leaves_loaded fun vm here => within_bind ih fun _ => trivial

theorem gone_isSet (resource : String) : isSet (some s!"Central no longer lists server {resource}.") =
    true := by
  have full : s!"Central no longer lists server {resource}." ≠ "" := by
    intro empty
    have parts := congrArg String.length empty
    simp only [String.length_append, String.length_empty, Nat.add_eq_zero_iff] at parts
    exact absurd parts.1.1 (by decide)
  exact decide_eq_true full

theorem refreshAll_leaves {registry : List Server} {markMissing : Bool} (docs : List Doc) :
    Leaves name before (refreshAll registry markMissing docs) := by
  induction docs with
  | nil => trivial
  | cons doc docs ih =>
    refine within_bind ?_ fun doc => within_bind ih fun _ => trivial
    unfold refreshOne
    split
    · trivial
    split
    · exact leaves_asks id fun time => leaves_dbSet (fun _ => rfl) (fun _ _ error => ⟨error, rfl⟩) trivial
    split
    · exact leaves_dbSet (fun _ => rfl) (fun _ _ _ => ⟨gone_isSet _, rfl⟩) trivial
    · trivial

theorem driveOn_leaves (docs : List Doc) : Leaves name before (docs.forM driveOn) := by
  induction docs with
  | nil => trivial
  | cons doc docs ih =>
    unfold List.forM
    refine within_bind ?_ fun _ => ih
    unfold driveOn
    split
    · exact leaves_asks id fun _ => trivial
    split
    · refine within_bind (leaves_catching (leaves_asks id fun _ => leaves_reply fun _ => trivial)
        fun _ => leaves_noneYet) fun names => ?_
      cases names with
      | none => trivial
      | some names => exact leaves_asks id fun _ =>
          leaves_dbSet (fun _ => rfl) (fun _ _ error => ⟨error, rfl⟩) trivial
    · trivial

theorem refreshFleet_leaves {markMissing : Bool} : Leaves name before (refreshFleet markMissing) := by
  unfold refreshFleet
  refine leaves_asks id fun config => ?_
  split
  · trivial
  refine leaves_asks id fun names => within_bind (loadAll_leaves names) fun docs =>
    leaves_asks id fun answer => ?_
  split
  · trivial
  exact leaves_reply fun registry => within_bind (refreshAll_leaves docs) fun docs => driveOn_leaves docs

theorem syncRegion_leaves {lower : String → String} {code : String} : Leaves name before
    (syncRegion lower code) := by
  unfold syncRegion
  refine within_bind (fun _ _ => trivial) fun doc => within_bind (fun _ _ => trivial) fun row => ?_
  split
  · trivial
  · exact ⟨fun _ _ => trivial, trivial⟩

theorem syncFleet_leaves {lower : String → String} : Leaves name before (syncFleet lower) := by
  refine within_bind ?_ fun _ => refreshFleet_leaves
  refine leaves_asks id fun config => ?_
  split
  · trivial
  refine leaves_asks id fun answer => leaves_reply fun codes => ?_
  induction codes with
  | nil => trivial
  | cons code codes ih =>
    unfold List.forM
    exact within_bind syncRegion_leaves fun _ => ih

/-! ### Actions -/

section

variable {other : String}

theorem resetFailedInstall_leaves (foreign : doc.name ≠ name) : Leaves name before
    (resetFailedInstall doc) := by
  unfold resetFailedInstall
  split
  · exact ⟨spares_map (fun _ => rfl) fun same => absurd same foreign, trivial⟩
  · trivial

theorem resume_leaves (foreign : doc.name ≠ name) : Leaves name before (resume doc) := by
  refine leaves_dbSet (fun _ => rfl) (fun same => absurd same foreign)
    (within_bind (resetFailedInstall_leaves ?_) fun doc => leaves_asks id fun _ => trivial)
  exact foreign

theorem retry_leaves (foreign : other ≠ name) : Leaves name before (retry other) := by
  refine fun row seen => leaves_loaded fun vm here => ?_
  dsimp only
  split
  · refine leaves_asks id fun answer => ?_
    split
    · exact within_bind (leaves_stop foreign) fun _ => trivial
    · trivial
    · refine leaves_dbSet (fun _ => rfl) (fun same => absurd same foreign) (resume_leaves ?_)
      exact foreign
  · exact resume_leaves foreign

theorem verifyHostAgain_leaves (foreign : other ≠ name) : Leaves name before (verifyHostAgain other) := by
  refine fun row seen => leaves_loaded fun vm here => ?_
  refine leaves_dbSet (fun _ => rfl) (fun same => absurd same foreign)
    (within_bind (verifyHost_leaves ?_) fun _ => trivial)
  exact foreign

theorem installSuiteApp_leaves (foreign : other ≠ name) : Leaves name before (installSuiteApp other) := by
  refine fun row seen => leaves_loaded fun vm here => ?_
  dsimp only
  split
  · refine leaves_dbSet (fun _ => rfl) (fun same => absurd same foreign)
      (within_bind (resetFailedInstall_leaves ?_) fun doc => leaves_asks id fun _ => trivial)
    exact foreign
  · exact leaves_asks id fun _ => trivial

theorem decommission_leaves : Leaves name before (decommission other) := fun _ _ =>
  leaves_loaded fun _ _ => leaves_dbSet (fun _ => rfl) (fun _ _ error => ⟨error, rfl⟩) trivial

theorem terminate_leaves : Leaves name before (terminate other) := by
  refine fun row seen => leaves_loaded fun vm here => ?_
  dsimp only
  split
  · trivial
  · exact leaves_asks id fun answer => leaves_reply fun _ =>
      leaves_dbSet (fun _ => rfl) (fun _ _ error => ⟨error, rfl⟩) trivial

theorem insert_leaves {region : String} {ipv4 ipv6 : Bool} : Leaves name before
    (insert other region ipv4 ipv6) := by
  refine leaves_asks id fun answer => leaves_reply fun resolved => ?_
  by_cases same : other = name
  · subst same
    intro row seen
    obtain ⟨vm, rfl, -⟩ := seen.2 rfl
    trivial
  refine within_bind (fun _ _ => trivial) fun row => ?_
  have spares : Spares name before (.server other) fun _ => some (.new other region ipv4 ipv6 resolved) :=
    fun _ _ => ⟨fun vm found => Option.some.inj found ▸ rfl, fun here => absurd here same⟩
  split
  · trivial
  · exact ⟨spares, id, fun _ => trivial⟩

end

end

/-! ## Every run -/

/-- Everything that may run but an operator's actions on a server: its retry, its host check, its install. -/
inductive Unattended (lower : String → String) (name : String) : Job Unit → Prop
  | provision (other : String) : Unattended lower name (provision other)
  | refreshFleet (markMissing : Bool) : Unattended lower name (refreshFleet markMissing)
  | syncFleet : Unattended lower name (syncFleet lower)
  | retry (other : String) : other ≠ name → Unattended lower name (retry other)
  | verifyHost (other : String) : other ≠ name → Unattended lower name (verifyHostAgain other)
  | installSuiteApp (other : String) : other ≠ name → Unattended lower name (installSuiteApp other)
  | decommission (other : String) : Unattended lower name (decommission other)
  | terminate (other : String) : Unattended lower name (terminate other)
  | insert (other region : String) (ipv4 ipv6 : Bool) : Unattended lower name (insert other region ipv4 ipv6)

theorem unattended_leaves {lower : String → String} {name : String} {before : VirtualMachine} {job : Job Unit}
    (unattended : Unattended lower name job) : Leaves name before job := by
  cases unattended with
  | provision other => exact provision_leaves other
  | refreshFleet markMissing => exact refreshFleet_leaves
  | syncFleet => exact syncFleet_leaves
  | retry other foreign => exact retry_leaves foreign
  | verifyHost other foreign => exact verifyHostAgain_leaves foreign
  | installSuiteApp other foreign => exact installSuiteApp_leaves foreign
  | decommission other => exact decommission_leaves
  | terminate other => exact terminate_leaves
  | insert other region ipv4 ipv6 => exact insert_leaves

/-- A server that waits for an operator. -/
def stuckServer : VirtualMachine := { newServer with error := some "Central collapsed this creation into b." }

def stuckFleet : ∀ key, Row key
  | .server name => if name = "a" then some stuckServer else none
  | .region _ => ⟨none, 0⟩

/-- Its provision job runs, and a refresh of the fleet starts it again. -/
def pokes : List (ℕ × Move Row Answer Raised) :=
  [(0, .start (provision "a")), (0, .goes), (0, .goes), (1, .start (refreshFleet false)),
    (1, .answered .config ⟨true, "", "suite", "main"⟩), (1, .answered .names ["a"]), (1, .goes),
    (1, .answered .registry (.ok [listed])), (1, .goes), (1, .goes), (2, .start (provision "a")), (2, .goes),
    (2, .goes)]

theorem pokes_run : (run System.step (System.idle stuckFleet : System ℕ Row Answer Raised) pokes).isSome =
    true := by
  decide

end SuiteCloud.Hosting.Machines
