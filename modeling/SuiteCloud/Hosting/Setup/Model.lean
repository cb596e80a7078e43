/-
**A Suite Site's setup job.**

`provision`, `run_step`, the steps `create`, `configure` and `follow_up` of `suite_cloud/hosting/sites.py`, and
the three follow-ups: `ensure` of `suite_cloud/mail/tenancy/hosted_domain.py`, `invite_owner`, and
`ensure_site_domain` of `suite_cloud/hosting/domains.py`. No other job writes the site meanwhile, so the document
in memory is the row. What Pilot, Central, the site, the DNS and Suite Cloud's other documents say is asked for.

* `create`, `configure`, `FollowUp.work` — the programs.
* `FollowsUp` — the loop of `follow_up`; `RunStep` — `run_step`; `Provision` — the loop of `provision`.
* `Written`, `Life` — the site's other writers, and the turns of all its jobs.
-/

import Mathlib.Data.List.Infix
import SuiteCloud.Hosting.Sites
import SuiteCloud.Library.Program
import SuiteCloud.Library.Text

namespace SuiteCloud.Hosting.Setup

open SuiteCloud.Library Program
open SuiteCloud.Hosting.Claims (Status)
open SuiteCloud.Hosting.Sites (SuiteSite stepFor)

/-! ## The record -/

inductive DomainStatus
  | pending
  | active
  | failed
  deriving DecidableEq

/-- A Suite Site Domain. -/
structure SuiteSiteDomain where
  domain : String
  status : DomainStatus
  managed : Bool
  isPrimary : Bool
  primarySkipped : Bool
  dnsRecords : Option String
  task : Option String
  failureReason : Option String

/-- **A Suite Site**, with what the follow-ups read and write. -/
structure Site extends SuiteSite where
  region : String
  label : Option String
  assignSiteDomain : Bool
  domains : List SuiteSiteDomain
  primaryDomain : Option String
  mailDomain : Option String
  mailDomainVerified : Bool
  ownerInvite : Option String
  error : Option String

/-- What the code reads beside the site: the settings' zones, and the servers. -/
structure Outside where
  /-- `labels.site_domain` and `labels.mail_domain`. -/
  siteDomain : String → Option String
  mailDomain : String → Option String
  /-- `letsencrypt_email_set` of a server, where there is one of the name. -/
  letsencrypt : String → Option Bool

/-- The language: translated texts, those with values put in, and Python's `str.lower`. -/
structure Wording where
  translate : String → String
  format : String → List String → String
  lower : String → String

namespace Site

variable (site : Site)

/-- A change of the fields that the jobs share. -/
def onJob (change : SuiteSite → SuiteSite) : Site := { site with toSuiteSite := change site.toSuiteSite }

def noted (error : Option String) : Site := { site with error := error }

/-- `site_domain`. -/
def siteDomain (outside : Outside) : Option String := (site.label.filter (· ≠ "")).bind outside.siteDomain

/-- `get_virtual_machine`, of which only this is read; none where it raises. -/
def letsencryptSet (outside : Outside) : Option Bool := site.virtualMachine.bind outside.letsencrypt

/-- `get_domain`. -/
def getDomain (words : Wording) (domain : String) : Option SuiteSiteDomain :=
  site.domains.find? fun row => row.domain = words.lower (strip domain)

/-- A row is set, by its domain. -/
def setDomain (domain : String) (change : SuiteSiteDomain → SuiteSiteDomain) : Site :=
  { site with domains := site.domains.map fun row => if row.domain = domain then change row else row }

end Site

def noLetsencryptEmail : String := "The server has no Let's Encrypt email, so the site domain is skipped."

/-- `follow_up_skip_reason`; none where it raises. -/
def followUpSkipReason (words : Wording) (outside : Outside) (site : Site) : Option (Option String) :=
  if site.assignSiteDomain ∧ (site.siteDomain outside).isSome then
    (site.letsencryptSet outside).map fun set => if set then none else some (words.translate noLetsencryptEmail)
  else some none

/-- `has_site_domain`. -/
def hasSiteDomain (words : Wording) (domain : String) (site : Site) : Bool :=
  match site.getDomain words domain with
  | some row => row.status = .active && (site.primaryDomain.isSome || row.primarySkipped)
  | none => false

/-! ## Programs -/

/-- How a step stops. -/
inductive Stop
  /-- One of `WAITING_ERRORS`. -/
  | waits (message : String)
  /-- Any other exception. -/
  | raises (message : String)

/-- What a request is answered. -/
inductive Answer (A : Type)
  | gives (value : A)
  | waits (message : String)
  | raises (message : String)

abbrev Step := Program Site Stop

/-- A request, or anything else that may raise. -/
def call (A : Type) : Step A :=
  .asks (Answer A) fun
    | .gives value => .done value
    | .waits message => .raises (.waits message)
    | .raises message => .raises (.raises message)

/-- An exception. -/
def raise {A : Type} (message : String) : Step A := .raises (.raises message)

/-- A task of Pilot as it stands. -/
inductive TaskStatus
  | running
  | success
  | failed

/-- `wait_for_task`: a checkpoint, and the task once it is finished or the time is over. -/
def waitForTask : Step TaskStatus := do
  keep
  call TaskStatus

/-- Pilot's answer to a request that starts a task; a 409 has a code. -/
inductive Started
  | task (id : String)
  | conflict (code message : String)

/-- `mark_created`. -/
def markCreated : Step Bool := do
  write fun site => (site.onJob (SuiteSite.created site.toSuiteSite)).noted none
  return true

/-- `reroll_hostname`. -/
def rerollHostname (words : Wording) (output : String) : Step Bool := do
  let site ← read
  if ¬ "already taken".toList <:+: (words.lower output).toList ∨
      SuiteSite.maxHostnameAttempts ≤ site.attempts + 1 then
    raise (if output = "" then words.translate "Pilot could not create the site." else output)
  else
    let host ← call String
    write fun site => site.onJob (SuiteSite.rerolled site.toSuiteSite host)
    return true

/-- The end of `create`: the task is waited for. -/
def awaitCreation (words : Wording) : Step Bool := do
  match ← waitForTask with
  | .running => return false
  | .success => markCreated
  | .failed =>
      let output ← call String
      rerollHostname words output

/-- `create`, of a site that has a server. -/
def createOnServer (words : Wording) : Step Bool := do
  call Unit
  let site ← read
  if site.pilotTask.isSome then awaitCreation words
  else
    let names ← call (List String)
    if site.hostname ∈ names.map some then markCreated
    else
      match ← call Started with
      | .conflict code message => if code = "task_conflict" then return false else raise message
      | .task id =>
          write fun site => site.onJob (SuiteSite.creating id)
          awaitCreation words

/-- **`create`**; `place` picks a server and a hostname. -/
def create (words : Wording) : Step Bool := do
  let site ← read
  if site.virtualMachine.isSome then createOnServer words
  else
    match ← call (Option (String × String)) with
    | none =>
        write fun site =>
          site.noted (words.format "Waiting: no server in \x7b0\x7d has a free site slot." [site.region])
        return false
    | some (server, host) =>
        write fun site => (site.onJob (SuiteSite.placed server host)).noted none
        createOnServer words

/-- `activate`, which notes why the site domain is skipped. -/
def activate (words : Wording) : Step Bool := do
  let outside ← ask Outside
  let site ← read
  match followUpSkipReason words outside site with
  | none => raise (words.format "Site \x7b0\x7d has no server yet." [site.name])
  | some reason =>
      write fun site => (site.onJob SuiteSite.activated).noted reason
      return true

/-- `configure_suite`, with the site's client: the tenant's credentials, the server's address, the onboarding
and the site's own check. -/
def configureSuite : Step Unit := do
  call Unit
  call Unit
  call Unit
  call Unit
  call Unit

/-- **`configure`.** -/
def configure (words : Wording) : Step Bool := do
  write fun site => site.onJob SuiteSite.configuring
  let site ← read
  if site.suiteConfigured then activate words
  else
    configureSuite
    write fun site => site.onJob SuiteSite.configured
    keep
    activate words

/-! ## Follow-ups -/

/-- `ensure_domain`: the Mail Domain that is saved, one of the label's name, or a new one. -/
def ensureDomain (words : Wording) : Step Unit := do
  let site ← read
  if site.mailDomain.isSome then call Unit
  else
    let outside ← ask Outside
    let owned ← call Bool
    if owned then write fun site => { site with mailDomain := site.label.bind outside.mailDomain }
    else
      raise (words.format "Mail Domain \x7b0\x7d belongs to someone else."
      [((site.label.bind outside.mailDomain).getD "")])

/-- The domain is live, or its records are verified and it is then. -/
def verify (live : Bool) : Step Bool := if live then return true else call Bool

/-- **`hosted_domain.ensure`.** -/
def ensure (words : Wording) : Step Bool := do
  let hasCluster ← call Bool
  if hasCluster then
    ensureDomain words
    call Unit
    keep
    let confirmed ← call Bool
    if confirmed then
      let live ← call Bool
      let verified ← verify live
      if verified then
        write fun site => { site with mailDomainVerified := true }
        return true
      else return false
    else return false
  else
    write fun site => site.noted
      (words.format "Tenant \x7b0\x7d has no Stalwart cluster; mail is skipped." [site.tenant.getD ""])
    return false

/-- **`invite_owner`**, and `complete` of the signup. -/
def inviteOwner : Step Bool := do
  call Unit
  let invite ← call String
  write fun site => { site with ownerInvite := some invite }
  call Unit
  return true

/-- `add_row`, of a managed domain. -/
def addRow (words : Wording) (domain : String) : Step Unit := do
  write fun site => { site with
    domains := site.domains ++ [⟨words.lower (strip domain), .pending, true, false, false, none, none, none⟩] }
  call Unit

/-- `set_row`, with `site.save`. -/
def setRow (domain : String) (change : SuiteSiteDomain → SuiteSiteDomain) : Step Bool := do
  write fun site => site.setDomain domain change
  call Unit
  return true

/-- `add_domain`, where no task is under way. -/
def start (task : Option String) : Step (Option Started) :=
  if task.isSome then return none
  else do
    let started ← call Started
    return some started

/-- `attach`. -/
def attach (words : Wording) (domain : String) (task : Option String) : Step Bool := do
  call Unit
  let started ← start task
  match started with
  | some (.conflict _ message) =>
      if "already attached".toList <:+: (words.lower message).toList then
        setRow domain fun row => { row with status := .active, failureReason := none }
      else
        let _ ← setRow domain fun row => { row with failureReason := some message }
        return false
  | some (.task id) =>
      let _ ← setRow domain fun row => { row with task := some id }
      attached
  | none => attached
where
  /-- The rest of `attach`, with a task. -/
  attached : Step Bool := do
    match ← waitForTask with
    | .running => return false
    | .success => setRow domain fun row => { row with status := .active, task := none, failureReason := none }
    | .failed =>
        let output ← call String
        let _ ← setRow domain fun row =>
          { row with status := .failed, task := none, failureReason := some output }
        return false

/-- `make_primary`, with `run_task`. -/
def makePrimary (words : Wording) (domain : String) : Step Unit := do
  let site ← read
  if (site.getDomain words domain).any fun row => row.status = .active then
    match ← call (Option String) with
    | some problem => raise problem
    | none =>
        call Unit
        runSetPrimary
  else raise (words.format "\x7b0\x7d is not attached yet." [domain])
where
  /-- The rest, with Pilot's task. -/
  runSetPrimary : Step Unit := do
    match ← waitForTask with
    | .running => raise (words.translate "Pilot is still working on it; try again in a few minutes.")
    | .failed =>
        let output ← call String
        raise (words.format "Pilot could not finish: \x7b0\x7d" [output])
    | .success =>
        write fun site => { site with
          domains := site.domains.map fun row =>
            if row.domain = domain then
              { row with isPrimary := true, primarySkipped := false, failureReason := none }
            else { row with isPrimary := false }
          primaryDomain := some domain }
        call Unit

/-- `skip_primary`, with `HTTPS_WAIT_MINUTES`. -/
def notMadePrimary : String :=
  "Not made primary: no HTTPS within \x7b0\x7d minutes of attaching. \x7b1\x7d"

/-- The end of `ensure_site_domain`: the domain is made primary once it answers over HTTPS. -/
def ensurePrimary (words : Wording) (domain : String) : Step Bool := do
  let site ← read
  if site.primaryDomain.isSome then return true
  else
    keep
    match ← call (Option String) with
    | some problem =>
        setRow domain fun row =>
          { row with primarySkipped := true, failureReason := some (words.format notMadePrimary ["5", problem]) }
    | none =>
        makePrimary words domain
        return true

/-- `fetch_records`, of records that are missing or old. -/
def fetchRecords (domain : String) : Step Unit := do
  let fresh ← call Bool
  if fresh then return ()
  else
    let records ← call String
    let _ ← setRow domain fun row => { row with dnsRecords := some records }

/-- The domain's row is there. -/
def ensureRow (words : Wording) (domain : String) : Step Unit := do
  let site ← read
  if (site.getDomain words domain).isNone then addRow words domain else return ()

/-- **`ensure_site_domain`.** -/
def ensureSiteDomain (words : Wording) : Step Bool := do
  let outside ← ask Outside
  let site ← read
  match site.siteDomain outside with
  | none => raise "'NoneType' object has no attribute 'strip'"
  | some domain =>
      ensureRow words domain
      let site ← read
      match site.getDomain words domain with
      | none => raise "'NoneType' object has no attribute 'status'"
      | some row =>
          if row.status = .active then ensurePrimary words row.domain
          else
            fetchRecords row.domain
            call Unit
            let visible ← call Bool
            if visible then
              let attached ← attach words row.domain row.task
              if attached then ensurePrimary words row.domain else return false
            else return false

inductive FollowUp
  | mail
  | ownerInvite
  | siteDomain
  deriving DecidableEq

namespace FollowUp

def title : FollowUp → String
  | mail => "Mail"
  | ownerInvite => "Owner invite"
  | siteDomain => "Site domain"

def label (words : Wording) (followUp : FollowUp) : String := words.translate followUp.title

/-- What it does. -/
def work (words : Wording) : FollowUp → Step Bool
  | mail => ensure words
  | ownerInvite => inviteOwner
  | siteDomain => ensureSiteDomain words

end FollowUp

/-- **`pending_follow_ups`**; none where it raises. -/
def pendingFollowUps (words : Wording) (outside : Outside) (site : Site) : Option (List FollowUp) :=
  let first :=
    if ¬ site.mailDomainVerified then [FollowUp.mail]
    else if site.ownerInvite.isNone then [.ownerInvite]
    else []
  match site.siteDomain outside with
  | none => some first
  | some domain =>
      if site.assignSiteDomain ∧ ¬ hasSiteDomain words domain site then
        (followUpSkipReason words outside site).map fun reason =>
          if reason.isNone then first ++ [FollowUp.siteDomain] else first
      else some first

/-! ## The job -/

section Job

variable (words : Wording)

/-- **What `follow_up` makes of a follow-up's outcome.** -/
def afterFollowUp (label : String) : Outcome Stop Bool → Site → Site → Site
  | .value finished, _, now =>
      if finished ∧ (label ++ ":").toList <+: (now.error.getD "").toList then now.noted none else now
  | .error (.waits message), _, now => now.noted (words.format "\x7b0\x7d: waiting: \x7b1\x7d" [label, message])
  | .error (.raises message), kept, _ => kept.noted (label ++ ": " ++ message)
  | .died, kept, _ => kept

/-- How the loop of `follow_up` is left. -/
inductive Left
  | finished
  /-- The pending follow-ups could not be read. -/
  | unread
  | died
  deriving DecidableEq

/-- **The loop of `follow_up`**: with the labels attempted, the follow-ups it tries and the site it leaves.
What is pending is read again at each turn. -/
inductive FollowsUp : List String → Site → List FollowUp → Left → Site → Prop
  | finished {attempted : List String} {site : Site} {pending : List FollowUp} (outside : Outside) :
      pendingFollowUps words outside site = some pending → (∀ step ∈ pending, step.label words ∈ attempted) →
      FollowsUp attempted site [] .finished site
  | unread {attempted : List String} {site : Site} (outside : Outside) :
      pendingFollowUps words outside site = none → FollowsUp attempted site [] .unread site
  | dies {attempted : List String} {site : Site} : FollowsUp attempted site [] .died site
  | lost {attempted : List String} {site kept now : Site} {pending : List FollowUp} {step : FollowUp}
      (outside : Outside) : pendingFollowUps words outside site = some pending →
      pending.find? (fun step => step.label words ∉ attempted) = some step →
      Ends (step.work words) site site .died kept now → FollowsUp attempted site [step] .died kept
  | next {attempted : List String} {site kept now there : Site} {pending tried : List FollowUp} {step : FollowUp}
      {outcome : Outcome Stop Bool} {left : Left} (outside : Outside) :
      pendingFollowUps words outside site = some pending →
      pending.find? (fun step => step.label words ∉ attempted) = some step →
      Ends (step.work words) site site outcome kept now → outcome ≠ .died →
      FollowsUp (step.label words :: attempted) (afterFollowUp words (step.label words) outcome kept now) tried
        left there →
      FollowsUp attempted site (step :: tried) left there

/-- What `follow_up` clears before its loop: a reason to skip the site domain that is gone. None where it raises. -/
def clearReason (outside : Outside) (site : Site) : Option Site :=
  if site.error = some (words.translate noLetsencryptEmail) then
    (followUpSkipReason words outside site).map fun reason => if reason.isNone then site.noted none else site
  else some site

/-- What `run_step` makes of an outcome: whether it goes on, and the site that is kept. -/
def afterStep : Outcome Stop Bool → Site → Site → Bool × Site
  | .value advanced, _, now => (advanced, now)
  | .error (.waits message), _, now => (false, now.noted (words.format "Waiting: \x7b0\x7d" [message]))
  | .error (.raises message), kept, _ => (false, (kept.onJob SuiteSite.failed).noted message)
  | .died, kept, _ => (false, kept)

/-- How `follow_up` is left, and the site then. It raises where what is pending cannot be read: before the first
follow-up this fails the site; after one there is no savepoint to go back to, and the job breaks off. -/
inductive FollowUpStep : Site → List FollowUp → Left → Site → Prop
  | uncleared {site : Site} (outside : Outside) (message : String) : clearReason words outside site = none →
      FollowUpStep site [] .unread ((site.onJob SuiteSite.failed).noted message)
  | unread {site cleared there : Site} (outside : Outside) (message : String) :
      clearReason words outside site = some cleared → FollowsUp words [] cleared [] .unread there →
      FollowUpStep site [] .unread ((there.onJob SuiteSite.failed).noted message)
  | broken {site cleared there : Site} {tried : List FollowUp} (outside : Outside) :
      clearReason words outside site = some cleared → FollowsUp words [] cleared tried .unread there → tried ≠ [] →
      FollowUpStep site tried .died there
  | finished {site cleared there : Site} {tried : List FollowUp} {left : Left} (outside : Outside) :
      clearReason words outside site = some cleared → FollowsUp words [] cleared tried left there →
      left ≠ .unread → FollowUpStep site tried left there

/-- **`run_step`**, to its commit: the follow-ups it tries, whether the job goes on, and the site. A worker that
dies goes on no more. -/
inductive RunStep : Site → List FollowUp → Bool → Site → Prop
  | create {site kept now : Site} {outcome : Outcome Stop Bool} : stepFor site.status = some .create →
      Ends (create words) site site outcome kept now →
      RunStep site [] (afterStep words outcome kept now).1 (afterStep words outcome kept now).2
  | configure {site kept now : Site} {outcome : Outcome Stop Bool} : stepFor site.status = some .configure →
      Ends (configure words) site site outcome kept now →
      RunStep site [] (afterStep words outcome kept now).1 (afterStep words outcome kept now).2
  | followUp {site there : Site} {tried : List FollowUp} {left : Left} : stepFor site.status = some .followUp →
      FollowUpStep words site tried left there → RunStep site tried false there

/-- Turns of the loop of `provision` that go on. -/
inductive Turns : ℕ → Site → Site → Prop
  | none (site : Site) : Turns 0 site site
  | next {n : ℕ} {site between there : Site} {tried : List FollowUp} : RunStep words site tried true between →
      Turns n between there → Turns (n + 1) site there

/-- **The loop of `provision`**: the follow-ups a job tries, and the site it leaves. -/
inductive Provision : Site → List FollowUp → Site → Prop
  | finished {site : Site} : stepFor site.status = none → Provision site [] site
  | last {site there : Site} {tried : List FollowUp} : RunStep words site tried false there →
      Provision site tried there
  | next {site between there : Site} {tried later : List FollowUp} : RunStep words site tried true between →
      Provision between later there → Provision site (tried ++ later) there

/-- **What else writes a site**, between its jobs. -/
inductive Written : Site → Site → Prop
  /-- `retry`. -/
  | retried {site : Site} : site.status = .failed →
      Written site ((site.onJob (SuiteSite.resumed site.toSuiteSite)).noted none)
  /-- `claim_site`. -/
  | claimed {site : Site} (tenant label : String) : site.status = .ready →
      Written site { site with tenant := some tenant, label := some label, status := .assigned }
  /-- `push_secret_to_site`. -/
  | rotated {site : Site} : Written site ((site.onJob SuiteSite.unconfigured).onJob SuiteSite.assigned)
  /-- `drop`. -/
  | dropping {site : Site} : Written site (site.onJob SuiteSite.dropping)
  | dropped {site : Site} : Written site { (site.onJob SuiteSite.dropped) with label := none, error := none }
  /-- The operator's actions on its domains. -/
  | domains {site : Site} (domains : List SuiteSiteDomain) (primary : Option String) :
      Written site { site with domains := domains, primaryDomain := primary }

/-- The hostname of a site that has a server is another one. -/
def reRolled (before after : Site) : ℕ :=
  if before.virtualMachine.isSome ∧ after.hostname ≠ before.hostname then 1 else 0

/-- **A site's life**, with the re-rolls of its hostname. -/
inductive Life (start : Site) : ℕ → Site → Prop
  | start : Life start 0 start
  | turn {n : ℕ} {site there : Site} {tried : List FollowUp} {advanced : Bool} : Life start n site →
      RunStep words site tried advanced there → Life start (n + reRolled site there) there
  | written {n : ℕ} {site there : Site} : Life start n site → Written site there →
      Life start (n + reRolled site there) there

end Job

end SuiteCloud.Hosting.Setup
