/-
**Servers on Central: how they are set up.**

`suite_cloud/hosting/machines.py`: `provision` and its five steps, each of them a transaction of its own
that has the server's row locked; the refresh of the fleet; `retry`; the region sync of `region.py`; and
what an operator runs on a `VirtualMachine`. Central, Pilot, the clock and the settings are asked, and may
answer anything.

* `VirtualMachine`, `Region`, `Row` — the rows.
* `Call`, `Answer` — what is asked.
* `create`, `accept`, `boot`, `verifyHost`, `installSuite` — the steps; `runStep`, `provision`.
* `refreshFleet`, `syncRegions`, `retry`, `insert` and the other actions; `IsJob` — everything that may run.
-/

import SuiteCloud.Library.Lines
import SuiteCloud.Library.Text
import SuiteCloud.Library.Transactions

namespace SuiteCloud.Hosting.Machines

open SuiteCloud.Library Script

/-! ## The rows -/

/-- `SERVER_STATUSES`. -/
inductive ServerStatus
  | pending
  | provisioning
  | deploying
  | running
  | paused
  | stopped
  | failed
  | terminated
  deriving DecidableEq

inductive AppStatus
  | pending
  | installing
  | installed
  | failed
  deriving DecidableEq

/-- What Python takes for true. -/
def isSet (text : Option String) : Bool := text.any fun text => text ≠ ""

/-- The fields of a Virtual Machine that its setup reads and writes. -/
structure VirtualMachine where
  region : String
  title : String
  requestKey : String
  plan : Option String
  imageOffering : String
  imageId : String
  hasPublicIpv4 : Bool
  hasPublicIpv6 : Bool
  status : ServerStatus
  enabled : Bool
  error : Option String
  centralAction : Option String
  centralResourceId : Option String
  gatewayUrl : Option String
  pilotAudience : Option String
  /-- In seconds. -/
  bootedAt : Option ℕ
  wildcardZone : Option String
  letsencryptEmailSet : Bool
  hostVerified : Bool
  suiteAppStatus : AppStatus
  suiteAppTask : Option String
  suiteAppCommit : Option String
  foreignSiteCount : ℕ
  readySince : Option ℕ
  deriving DecidableEq

namespace VirtualMachine

variable (vm : VirtualMachine)

/-- `has_booted`. -/
def hasBooted : Bool := vm.status = .running ∧ isSet vm.gatewayUrl ∧ isSet vm.pilotAudience

/-- `is_ready`. -/
def isReady : Bool :=
  vm.status = .running ∧ vm.hostVerified ∧ vm.suiteAppStatus = .installed ∧ ¬ isSet vm.error

/-- `is_building`. -/
def isBuilding : Bool :=
  ¬ vm.isReady ∧ ¬ isSet vm.error ∧ vm.status ∈ [.pending, .provisioning, .deploying, .running]

end VirtualMachine

/-- The arguments of `create_server`. -/
structure ServerArguments where
  region : String
  title : String
  requestKey : String
  plan : Option String
  offering : String
  imageId : String
  hasPublicIpv4 : Bool
  hasPublicIpv6 : Bool
  deriving DecidableEq

/-- `server_arguments`. -/
def serverArguments (vm : VirtualMachine) : ServerArguments :=
  ⟨vm.region, vm.title, vm.requestKey, vm.plan, vm.imageOffering, vm.imageId, vm.hasPublicIpv4,
    vm.hasPublicIpv6⟩

/-- A Region: its proxy zone, and the stamp its last write left. -/
structure Region where
  proxyZone : Option String
  modified : ℕ
  deriving DecidableEq

inductive Key
  | server (name : String)
  | region (code : String)
  deriving DecidableEq

/-- A server's row, where there is one, and a region's. -/
@[reducible] def Row : Key → Type
  | .server _ => Option VirtualMachine
  | .region _ => Region

/-! ## What is asked -/

/-- What the clients raise. -/
inductive Raised
  | pilotNotReady
  | pilotError
  | unavailable
  | rejected (message : String) (remediation : Option String)
  /-- Any other exception. -/
  | other
  deriving DecidableEq

/-- `FAILED_ACTION_STATUSES`, and every other one. -/
inductive ActionState
  | failed
  | timedOut
  | other
  deriving DecidableEq

def ActionState.shown : ActionState → String
  | failed => "Failed"
  | timedOut => "Timed Out"
  | other => ""

/-- What Central says of an action. -/
structure ActionStatus where
  resourceId : Option String
  status : ActionState
  message : Option String
  remediation : Option String
  deriving DecidableEq

/-- A server of Central's registry; `status` where it is one of `SERVER_STATUSES`. -/
structure Server where
  resourceId : Option String
  status : Option ServerStatus
  gatewayUrl : Option String
  pilotAudience : Option String
  plan : Option String
  deriving DecidableEq

/-- Pilot's settings. -/
structure PilotSettings where
  letsencryptEmail : Option String
  production : Bool
  deriving DecidableEq

structure App where
  name : String
  currentCommit : Option String
  deriving DecidableEq

/-- The statuses of a task; the first three are `TERMINAL_TASK_STATUSES`. -/
inductive TaskStatus
  | success
  | failed
  | killed
  | other
  deriving DecidableEq

/-- `is_finished`. -/
def TaskStatus.isFinished (status : TaskStatus) : Bool := status ≠ .other

/-- The settings that are read. -/
structure Config where
  isCentralConfigured : Bool
  acmeContactEmail : String
  suiteAppRepo : String
  suiteAppRef : String
  deriving DecidableEq

/-- What `resolve_server_arguments` settles on. -/
structure Resolved where
  plan : Option String
  imageOffering : String
  imageId : String
  deriving DecidableEq

/-- **What is asked**, of Central, of the Pilot of a server, and of the system. -/
inductive Call
  | createServer (arguments : ServerArguments)
  | actionStatus (action : String)
  | retryAction (action : String)
  | registry
  | terminateServer (resource : String)
  | resolve (region : String)
  /-- The codes of `list_instances`. -/
  | listInstances
  | wildcardDomains (vm : String)
  | settings (vm : String)
  | setLetsencryptEmail (vm : String) (email : String)
  | listApps (vm : String)
  | installApp (vm : String) (repo ref : String)
  | getTask (vm : String) (task : String)
  | taskOutput (vm : String) (task : String)
  | listSites (vm : String)
  /-- Another server that has the action. -/
  | other (action vm : String)
  /-- The names of all Virtual Machines. -/
  | names
  /-- The hostnames of the Suite Sites on a server. -/
  | hostnames (vm : String)
  | enqueueProvision (vm : String)
  | config
  | now
  /-- How often the clock lets `wait_for_task` ask again. -/
  | patience
  deriving DecidableEq

@[reducible] def Answer : Call → Type
  | .createServer _ => Except Raised String
  | .actionStatus _ => Except Raised ActionStatus
  | .retryAction _ => Except Raised (Option String)
  | .registry => Except Raised (List Server)
  | .terminateServer _ => Except Raised Unit
  | .resolve _ => Except Raised Resolved
  | .listInstances => Except Raised (List String)
  | .wildcardDomains _ => Except Raised (List String)
  | .settings _ => Except Raised PilotSettings
  | .setLetsencryptEmail _ _ => Except Raised Unit
  | .listApps _ => Except Raised (List App)
  | .installApp _ _ _ => Except Raised String
  | .getTask _ _ => Except Raised TaskStatus
  | .taskOutput _ _ => Except Raised String
  | .listSites _ => Except Raised (List String)
  | .other _ _ => Option String
  | .names => List String
  | .hostnames _ => List String
  | .enqueueProvision _ => Unit
  | .config => Config
  | .now => ℕ
  | .patience => ℕ

/-- A job of the hosting queue, or an action of an operator. -/
abbrev Job (α : Type) := Script Row Answer Raised α

def asks (call : Call) : Job (Answer call) := Script.ask call

/-- A client's call: what it raises is raised. -/
def reply {α : Type} : Except Raised α → Job α
  | .ok value => pure value
  | .error error => raise error

/-! ## Documents -/

/-- A document in memory. -/
structure Doc where
  name : String
  vm : VirtualMachine

/-- `db_set`: the row, whoever wrote it since, and the document. -/
def Doc.dbSet (doc : Doc) (change : VirtualMachine → VirtualMachine) : Job Doc := do
  write (Key.server doc.name) (Option.map change)
  pure ⟨doc.name, change doc.vm⟩

/-- `get_doc` of what a row is. -/
def loaded (name : String) : Option VirtualMachine → Job Doc
  | some vm => pure ⟨name, vm⟩
  | none => raise .other

/-- `stop`. -/
def stop (doc : Doc) (message : String) : Job Unit := do
  let _ ← doc.dbSet fun vm => { vm with error := some message }

/-- `central_message`. -/
def centralMessage (message : String) (remediation : Option String) : String :=
  " ".intercalate (([some message, remediation].reduceOption).filter (· ≠ ""))

/-- `action_error_text`. -/
def actionErrorText (status : ActionStatus) : String :=
  let message :=
    if isSet status.message then status.message.getD ""
    else s!"Central reports the creation {status.status.shown}."
  let remediation := status.remediation.getD ""
  if isSet status.remediation then s!"{message} {remediation}" else message

/-- The last lines that `output_tail` keeps. -/
def tailLines (output : String) : String :=
  let lines := splitlines (strip output).toList
  String.ofList (['\n'].intercalate (lines.drop (lines.length - 20)))

/-! ## The steps -/

/-- `create`. -/
def create (doc : Doc) : Job Bool := do
  if isSet doc.vm.centralAction then return true
  let action ← reply (← asks (.createServer (serverArguments doc.vm)))
  match ← asks (.other action doc.name) with
  | some other =>
      let _ ← doc.dbSet fun vm =>
        { vm with status := .failed, error := some s!"Central collapsed this creation into {other}." }
      return false
  | none =>
      let _ ← doc.dbSet fun vm => { vm with centralAction := some action }
      return true

/-- `accept`. -/
def accept (doc : Doc) : Job Bool := do
  if isSet doc.vm.centralResourceId then return true
  let status ← reply (← asks (.actionStatus (doc.vm.centralAction.getD "")))
  if isSet status.resourceId then
    let _ ← doc.dbSet fun vm => { vm with centralResourceId := status.resourceId, status := .provisioning }
    return true
  if status.status = .failed ∨ status.status = .timedOut then
    let _ ← doc.dbSet fun vm => { vm with status := .failed, error := some (actionErrorText status) }
  return false

/-- `find_server`. -/
def findServer (registry : List Server) (resource : Option String) : Option Server :=
  registry.find? fun server => server.resourceId = resource

/-- What `apply_server` writes. -/
def applied (doc : VirtualMachine) (server : Server) (time : ℕ) (vm : VirtualMachine) : VirtualMachine :=
  { vm with
    gatewayUrl := server.gatewayUrl
    pilotAudience := server.pilotAudience
    plan := server.plan
    status := server.status.getD vm.status
    bootedAt := if server.status = some .running ∧ doc.bootedAt.isNone then some time else vm.bootedAt }

/-- `apply_server`. -/
def applyServer (doc : Doc) (server : Server) : Job Doc := do
  let time ← asks .now
  doc.dbSet (applied doc.vm server time)

/-- `boot`. -/
def boot (doc : Doc) : Job Bool := do
  if doc.vm.hasBooted then return true
  match findServer (← reply (← asks .registry)) doc.vm.centralResourceId with
  | some server => return (← applyServer doc server).vm.hasBooted
  | none => return false

/-- `PILOT_BOOT_DEADLINE`. -/
def pilotBootDeadline : ℕ := 30 * 60

/-- What Pilot raises is logged. -/
def keepsSettings (settings : PilotSettings) : Raised → Job PilotSettings
  | .pilotNotReady | .pilotError => pure settings
  | error => raise error

/-- `ensure_letsencrypt_email`. -/
def ensureLetsencryptEmail (doc : Doc) (settings : PilotSettings) : Job PilotSettings := do
  let config ← asks .config
  if isSet settings.letsencryptEmail ∨ config.acmeContactEmail = "" then return settings
  let taken : Job PilotSettings := do
    reply (← asks (.setLetsencryptEmail doc.name config.acmeContactEmail))
    reply (← asks (.settings doc.name))
  taken.catching (keepsSettings settings)

/-- `learn_proxy_zone`. -/
def learnProxyZone (region zone : String) : Job String := do
  let row : Region ← lock (Key.region region)
  if isSet row.proxyZone then return row.proxyZone.getD ""
  write (Key.region region) fun row : Region => { proxyZone := some zone, modified := row.modified + 1 }
  return zone

/-- `host_problem`. -/
def hostProblem (vm : VirtualMachine) (zone : Option String) (settings : PilotSettings) : Job
    (Option String) :=
  match zone.filter (· ≠ "") with
  | none => pure (some "Pilot lists no wildcard domain, so sites on this server cannot be routed.")
  | some zone =>
    if ¬ (vm.region ++ ".").toList <+: zone.toList then
      pure (some s!"Pilot registers sites under {zone}, which is not a zone of region {vm.region}.")
    else do
      let proxyZone ← learnProxyZone vm.region zone
      if zone ≠ proxyZone then
        return some s!"Pilot registers sites under {zone}, but region {vm.region} serves {proxyZone}."
      if ¬ settings.production then return some "Pilot is not in production mode."
      return none

/-- The zone that Pilot's domains name. -/
def zoneOf (domains : List String) : Option String :=
  domains.head?.map fun domain => String.ofList (domain.toList.dropWhile (· == '.'))

/-- Nothing, where Pilot is not ready. -/
def noneYet {α : Type} : Raised → Job (Option α)
  | .pilotNotReady => pure none
  | error => raise error

/-- What is asked first by `verify_host`; nothing where Pilot is not ready. -/
def askPilot (doc : Doc) : Job (Option (List String × PilotSettings)) :=
  let answers : Job (Option (List String × PilotSettings)) := do
    let domains ← reply (← asks (.wildcardDomains doc.name))
    let settings ← reply (← asks (.settings doc.name))
    return some (domains, settings)
  answers.catching noneYet

/-- `verify_host`. -/
def verifyHost (doc : Doc) : Job Bool := do
  if doc.vm.hostVerified then return true
  match ← askPilot doc with
  | none =>
      let time ← asks .now
      if doc.vm.bootedAt.any fun booted => pilotBootDeadline < time - booted then
        stop doc "Pilot did not answer within 30 minutes of the server booting."
      return false
  | some (domains, settings) =>
      let settings ← ensureLetsencryptEmail doc settings
      let doc ← doc.dbSet fun vm =>
        { vm with wildcardZone := zoneOf domains, letsencryptEmailSet := isSet settings.letsencryptEmail }
      match ← hostProblem doc.vm (zoneOf domains) settings with
      | some problem =>
          stop doc problem
          return false
      | none =>
          let _ ← doc.dbSet fun vm => { vm with hostVerified := true }
          return true

/-- `find_app` of the Suite app. -/
def findApp (apps : List App) : Option App := apps.find? fun app => app.name = "suite"

/-- `mark_installed`. -/
def markInstalled (doc : Doc) (app : App) : Job Bool := do
  let _ ← doc.dbSet fun vm =>
    { vm with suiteAppStatus := .installed, suiteAppCommit := app.currentCommit, suiteAppTask := none }
  return true

/-- The loop of `wait_for_task`. -/
def poll (doc : Doc) (task : String) : ℕ → Job TaskStatus
  | 0 => do reply (← asks (.getTask doc.name task))
  | again + 1 => do
      let status ← reply (← asks (.getTask doc.name task))
      if status.isFinished then return status
      poll doc task again

/-- `wait_for_task`: no row is locked while it waits. -/
def waitForTask (doc : Doc) (task : String) : Job TaskStatus := do
  commit
  poll doc task (← asks .patience)

/-- The rest of `install_suite`, from its wait on. -/
def awaitInstall (doc : Doc) (task : String) : Job Bool := do
  let status ← waitForTask doc task
  if ¬ status.isFinished then return false
  if status ≠ .success then
    let output ← reply (← asks (.taskOutput doc.name task))
    let _ ← doc.dbSet fun vm => { vm with suiteAppStatus := .failed, error := some (tailLines output) }
    return false
  match findApp (← reply (← asks (.listApps doc.name))) with
  | none =>
      let _ ← doc.dbSet fun vm =>
        { vm with suiteAppStatus := .failed, error := some "The install finished without the Suite app." }
      return false
  | some app => markInstalled doc app

/-- `install_suite`. -/
def installSuite (doc : Doc) : Job Bool := do
  if doc.vm.suiteAppStatus = .installed then return true
  if isSet doc.vm.suiteAppTask then awaitInstall doc (doc.vm.suiteAppTask.getD "")
  else
    match findApp (← reply (← asks (.listApps doc.name))) with
    | some app => markInstalled doc app
    | none =>
        let config ← asks .config
        let task ← reply (← asks (.installApp doc.name config.suiteAppRepo config.suiteAppRef))
        let doc ← doc.dbSet fun vm => { vm with suiteAppStatus := .installing, suiteAppTask := some task }
        awaitInstall doc task

/-! ## The provision job -/

/-- The steps, under the names that an error gives them. -/
inductive Step
  | create
  | accept
  | boot
  | verifyHost
  | installSuite
  deriving DecidableEq

def Step.all : List Step := [.create, .accept, .boot, .verifyHost, .installSuite]

def Step.work : Step → Doc → Job Bool
  | create => Machines.create
  | accept => Machines.accept
  | boot => Machines.boot
  | verifyHost => Machines.verifyHost
  | installSuite => Machines.installSuite

def Step.shown : Step → String
  | create => "create"
  | accept => "accept"
  | boot => "boot"
  | verifyHost => "verify_host"
  | installSuite => "install_suite"

/-- What `run_step` makes of an exception: what a step that failed wrote is taken back. -/
def stepRaised (step : Step) (doc : Doc) : Raised → Job Bool
  | .pilotNotReady | .unavailable => pure false
  | .rejected message remediation => do
      stop doc (centralMessage message remediation)
      return false
  | .pilotError | .other => do
      undo
      stop doc s!"{step.shown} failed; see the Error Log."
      return false

/-- `run_step`. -/
def runStep (step : Step) (doc : Doc) : Job Bool := do
  let done ← (step.work doc).catching (stepRaised step doc)
  commit
  return done

/-- Nothing is set up that failed, or that an error stops. -/
def VirtualMachine.isHeld (vm : VirtualMachine) : Bool :=
  isSet vm.error ∨ vm.status = .failed ∨ vm.status = .terminated

/-- `provision`, from a step on. -/
def provisionFrom (name : String) : List Step → Job Unit
  | [] => do
      let doc ← loaded name (← read (Key.server name))
      if doc.vm.readySince.isNone then
        let time ← asks .now
        let _ ← doc.dbSet fun vm => { vm with readySince := some time }
      commit
  | step :: later => do
      let doc ← loaded name (← lock (Key.server name))
      if doc.vm.isHeld then return
      if ← runStep step doc then provisionFrom name later

/-- `provision`. -/
def provision (name : String) : Job Unit := provisionFrom name Step.all

/-! ## The fleet -/

/-- `mark_terminated`. -/
def markTerminated (doc : Doc) : Job Doc :=
  let resource := doc.vm.centralResourceId.getD ""
  doc.dbSet fun vm =>
    { vm with
      status := .terminated
      enabled := false
      error := some s!"Central no longer lists server {resource}." }

/-- `refresh_fleet`: one server. -/
def refreshOne (registry : List Server) (markMissing : Bool) (doc : Doc) : Job Doc :=
  if ¬ isSet doc.vm.centralResourceId ∨ doc.vm.status = .terminated then pure doc
  else match findServer registry doc.vm.centralResourceId with
    | some server => applyServer doc server
    | none => if markMissing then markTerminated doc else pure doc

def loadAll : List String → Job (List Doc)
  | [] => pure []
  | name :: names => do
      let doc ← loaded name (← read (Key.server name))
      return doc :: (← loadAll names)

def refreshAll (registry : List Server) (markMissing : Bool) : List Doc → Job (List Doc)
  | [] => pure []
  | doc :: docs => do
      let doc ← refreshOne registry markMissing doc
      return doc :: (← refreshAll registry markMissing docs)

/-- `refresh_foreign_sites`, of the sites that Pilot lists. -/
def countForeign (doc : Doc) : Option (List String) → Job Unit
  | none => pure ()
  | some names => do
      let ours ← asks (.hostnames doc.name)
      let _ ← doc.dbSet fun vm => { vm with foreignSiteCount := (names.dedup.filter (· ∉ ours)).length }
      commit

/-- The sites that Pilot lists; nothing where it is not ready. -/
def askSites (doc : Doc) : Job (Option (List String)) :=
  let answer : Job (Option (List String)) := do return some (← reply (← asks (.listSites doc.name)))
  answer.catching noneYet

/-- `refresh_foreign_sites`. -/
def refreshForeignSites (doc : Doc) : Job Unit := do countForeign doc (← askSites doc)

/-- What follows a refresh of a server. -/
def driveOn (doc : Doc) : Job Unit := do
  if doc.vm.isBuilding then
    let _ ← asks (.enqueueProvision doc.name)
  else if doc.vm.isReady then refreshForeignSites doc

/-- `refresh_fleet`. -/
def refreshFleet (markMissing : Bool) : Job Unit := do
  let config ← asks .config
  if ¬ config.isCentralConfigured then return
  let docs ← loadAll (← asks .names)
  let answer ← asks .registry
  if answer = .error .unavailable then return
  let docs ← refreshAll (← reply answer) markMissing docs
  commit
  docs.forM driveOn

/-! ## Regions -/

section

variable (lower : String → String)

/-- `Region.validate`. -/
def validZone (zone : Option String) : Option String :=
  let zone := stripOf (· == '.') (lower (strip (zone.getD "")))
  if zone = "" then none else some zone

/-- `sync_regions`: one region; a save refuses where another was made since the document was read. -/
def syncRegion (code : String) : Job Unit := do
  let doc : Region ← read (Key.region code)
  let row : Region ← lock (Key.region code)
  if row.modified ≠ doc.modified then raise .other
  write (Key.region code) fun _ => ⟨validZone lower doc.proxyZone, row.modified + 1⟩

/-- `sync_regions`. -/
def syncRegions : Job Unit := do
  let config ← asks .config
  if ¬ config.isCentralConfigured then return
  (← reply (← asks .listInstances)).forM (syncRegion lower)

/-- `sync_fleet`. -/
def syncFleet : Job Unit := do
  syncRegions lower
  commit
  refreshFleet true

end

/-! ## Actions -/

/-- `reset_failed_install`. -/
def resetFailedInstall (doc : Doc) : Job Doc :=
  if doc.vm.suiteAppStatus = .failed then
    doc.dbSet fun vm => { vm with suiteAppStatus := .pending, suiteAppTask := none }
  else pure doc

/-- The last part of `retry`. -/
def resume (doc : Doc) : Job Unit := do
  let doc ← doc.dbSet fun vm =>
    { vm with status := if doc.vm.status = .failed then .pending else doc.vm.status, error := none }
  let doc ← resetFailedInstall doc
  let _ ← asks (.enqueueProvision doc.name)
  commit

/-- `VirtualMachine.retry`. -/
def retry (name : String) : Job Unit := do
  let doc ← loaded name (← read (Key.server name))
  if isSet doc.vm.centralAction ∧ ¬ isSet doc.vm.centralResourceId ∧ doc.vm.status = .failed then
    match ← asks (.retryAction (doc.vm.centralAction.getD "")) with
    | .error (.rejected message remediation) =>
        stop doc (centralMessage message remediation)
        commit
    | .error error => raise error
    | .ok action =>
        let doc ← doc.dbSet fun vm =>
          { vm with centralAction := if isSet action then action else doc.vm.centralAction }
        resume doc
  else resume doc

/-- `VirtualMachine.verify_host`. -/
def verifyHostAgain (name : String) : Job Unit := do
  let doc ← loaded name (← read (Key.server name))
  let doc ← doc.dbSet fun vm => { vm with hostVerified := false, error := none }
  let _ ← verifyHost doc
  commit

/-- `VirtualMachine.install_suite_app`. -/
def installSuiteApp (name : String) : Job Unit := do
  let doc ← loaded name (← read (Key.server name))
  if doc.vm.suiteAppStatus = .failed then
    let doc ← doc.dbSet fun vm => { vm with error := none }
    let _ ← resetFailedInstall doc
  let _ ← asks (.enqueueProvision name)
  commit

/-- `VirtualMachine.decommission`. -/
def decommission (name : String) : Job Unit := do
  let doc ← loaded name (← read (Key.server name))
  let _ ← doc.dbSet fun vm => { vm with enabled := false }
  commit

/-- `VirtualMachine.terminate`, of a server without sites. -/
def terminate (name : String) : Job Unit := do
  let doc ← loaded name (← read (Key.server name))
  if ¬ isSet doc.vm.centralResourceId then raise .other
  reply (← asks (.terminateServer (doc.vm.centralResourceId.getD "")))
  let _ ← doc.dbSet fun vm => { vm with enabled := false }
  commit

/-- A new Virtual Machine, as `before_insert` and `validate` leave it. -/
def VirtualMachine.new (name region : String) (ipv4 ipv6 : Bool) (resolved : Resolved) : VirtualMachine where
  region := region
  title := s!"suite-{region}-{name}"
  requestKey := s!"suite-cloud-{name}"
  plan := resolved.plan
  imageOffering := resolved.imageOffering
  imageId := resolved.imageId
  hasPublicIpv4 := ipv4
  hasPublicIpv6 := ipv6
  status := .pending
  enabled := true
  error := none
  centralAction := none
  centralResourceId := none
  gatewayUrl := none
  pilotAudience := none
  bootedAt := none
  wildcardZone := none
  letsencryptEmailSet := false
  hostVerified := false
  suiteAppStatus := .pending
  suiteAppTask := none
  suiteAppCommit := none
  foreignSiteCount := 0
  readySince := none

/-- The insert of a Virtual Machine. -/
def insert (name region : String) (ipv4 ipv6 : Bool) : Job Unit := do
  let resolved ← reply (← asks (.resolve region))
  let row : Option VirtualMachine ← lock (Key.server name)
  if row.isSome then raise .other
  write (Key.server name) fun _ => some (.new name region ipv4 ipv6 resolved)
  let _ ← asks (.enqueueProvision name)
  commit

/-- **Everything that may run.** -/
inductive IsJob (lower : String → String) : Job Unit → Prop
  | provision (name : String) : IsJob lower (provision name)
  | refreshFleet (markMissing : Bool) : IsJob lower (refreshFleet markMissing)
  | syncFleet : IsJob lower (syncFleet lower)
  | retry (name : String) : IsJob lower (retry name)
  | verifyHost (name : String) : IsJob lower (verifyHostAgain name)
  | installSuiteApp (name : String) : IsJob lower (installSuiteApp name)
  | decommission (name : String) : IsJob lower (decommission name)
  | terminate (name : String) : IsJob lower (terminate name)
  | insert (name region : String) (ipv4 ipv6 : Bool) : IsJob lower (insert name region ipv4 ipv6)

end SuiteCloud.Hosting.Machines
