/-
**The labels of signups.**

`suite_cloud/hosting/labels.py` and `process_request` of
`suite_cloud/hosting/doctype/suite_tenant_request/suite_tenant_request.py`. A job reads before it waits
for the label lock, so at REPEATABLE READ it checks its label, given or made from the organization, in a
view that may be older than what the holder before it has committed.

* `isTaken`, `generateLabel`, `reserveLabel` — the checks, over the rows a transaction sees.
* `HeldOnce` — no two requests being processed have one label, nor has one of them the label of another
  tenant's site.
* `labels_held_once` — **no two signups get one label** in a run in which every job sees as taken what is
  taken when it reserves.
* `one_label_twice` — two jobs that both read before the first one commits.

What `unicodedata.normalize`, the ASCII encoding and `lower` make of an organization's name is a parameter.
-/

import SuiteCloud.Dns.Record
import SuiteCloud.Library.Keyed
import SuiteCloud.Library.Maps
import SuiteCloud.Library.ReadView
import SuiteCloud.Library.Transition

namespace SuiteCloud.Hosting.Labels

open SuiteCloud.Library

/-! ## Texts -/

/-- `SHARED_ZONE_LABEL`. -/
def sharedZoneLabel : String := "sites"

/-- `RESERVED`. -/
def reserved : List String :=
  ["admin", "atlas", "cargo", "proxy", "site", "www", "mail", "spf", "out", sharedZoneLabel]

/-- `RESERVED_PATTERN`. -/
def matchesReservedPattern (label : String) : Bool :=
  let text := label.toList
  ("spf".toList.isPrefixOf text && !(text.drop 3).isEmpty && (text.drop 3).all Char.isDigit) ||
    "proxy-".toList.isPrefixOf text || "site-".toList.isPrefixOf text ||
    decide ("-vm-".toList <:+: text)

/-- `is_reserved`. -/
def isReserved (label : String) : Bool := decide (label ∈ reserved) || matchesReservedPattern label

/-- `GENERATED_LENGTH`. -/
def generatedLength : ℕ := 30

/-- `LEGAL_SUFFIXES`. -/
def legalSuffixes : List String :=
  ["inc", "llc", "llp", "ltd", "limited", "pvt", "private", "corp", "co", "gmbh", "plc", "ag", "bv", "sa"]

/-- `re.findall(r"[a-z0-9]+", text)`. -/
def findWords (text : String) : List String :=
  ((text.toList.splitOnP fun c => !(c.isLower || c.isDigit)).filter (· ≠ [])).map String.ofList

/-- The words from the last on, without the legal suffixes; one word always stays. -/
def dropSuffixes : List String → List String
  | [] => []
  | [word] => [word]
  | word :: rest => if word ∈ legalSuffixes then dropSuffixes rest else word :: rest

/-- The rest of `join_within`: words as long as they fit. -/
def joinRest (length : ℕ) : String → List String → String
  | label, [] => label
  | label, word :: rest =>
      if label.length + 1 + word.length > length then label
      else joinRest length (label ++ "-" ++ word) rest

/-- `join_within`. -/
def joinWithin (length : ℕ) : List String → String
  | [] => ""
  | word :: rest => joinRest length (String.ofList (word.toList.take length)) rest

variable (fold : String → String)

/-- `label_from`. -/
def labelFrom (organization : String) : String :=
  let found := findWords (fold organization)
  let words := (dropSuffixes (if found = [] then ["workspace"] else found).reverse).reverse
  let words := if 1 < words.length then
      (if words.filter (· ≠ "vm") = [] then ["vm"] else words.filter (· ≠ "vm"))
    else words
  let label := joinWithin generatedLength words
  if isReserved label then joinWithin generatedLength ("team" :: words) else label

/-- The labels `generate_label` tries, in order. -/
def labelsFor (organization : String) : List String :=
  let base := labelFrom fold organization
  (List.range 99).map fun i =>
    let suffix := "-" ++ toString (i + 1)
    if i = 0 then base
    else joinWithin (generatedLength - suffix.length)
      ((base.toList.splitOn '-').map String.ofList) ++ suffix

/-! ## Rows -/

inductive Status
  | pending
  | verified
  | processing
  | completed
  | failed
  | expired
  deriving DecidableEq

/-- A Suite Tenant Request. -/
structure Request where
  name : String
  status : Status
  label : Option String
  organization : String
  tenant : Option String
  suiteSite : Option String
  deriving DecidableEq

/-- A Suite Site; `dropped` is its status Dropped. -/
structure SuiteSite where
  name : String
  label : Option String
  tenant : Option String
  dropped : Bool
  deriving DecidableEq

structure MailDomain where
  name : String
  tenant : String
  hosted : Bool
  deriving DecidableEq

/-- The rows the checks read. -/
structure Data where
  requests : Keyed String Request Request.name
  sites : List SuiteSite
  clusterLabels : List String
  domains : List MailDomain
  records : List (String × String)

/-- `site_dns_zone` and `tenant_mail_zone`. -/
structure Config where
  siteZone : Option String
  mailZone : Option String

/-! ## The checks -/

/-- `site_domain`. -/
def siteDomain (config : Config) (label : String) : Option String :=
  config.siteZone.map fun zone =>
    if config.siteZone = config.mailZone then label ++ "." ++ sharedZoneLabel ++ "." ++ zone
    else label ++ "." ++ zone

/-- `mail_domain`. -/
def mailDomain (config : Config) (label : String) : Option String :=
  config.mailZone.map fun zone => label ++ "." ++ zone

/-- `has_records`. -/
def hasRecords (data : Data) (zone host : String) : Bool :=
  data.records.any fun record =>
    record.1 = zone && (record.2 = host || ("." ++ host).toList.isSuffixOf record.2.toList)

/-- `is_domain_held`. -/
def isDomainHeld (data : Data) (domain zone : String) (tenant : Option String) : Bool :=
  if data.domains.any fun held => held.name = domain && some held.tenant = tenant && held.hosted then false
  else data.domains.any (fun held => held.name = domain) ||
    (Dns.relativeHost domain zone).any (hasRecords data zone)

/-- `is_taken`, for a request that is not to count and the tenant it is for. -/
def isTaken (config : Config) (data : Data) (label request : String) (tenant : Option String)
    (holders : List Status) : Bool :=
  decide (label ∈ data.clusterLabels) ||
    data.sites.any (fun site => site.label = some label && !site.dropped) ||
    data.requests.rows.any (fun other =>
      other.label = some label && decide (other.status ∈ holders) && other.name ≠ request) ||
    (siteDomain config label).any (fun domain =>
      config.siteZone.any fun zone => isDomainHeld data domain zone tenant) ||
    (mailDomain config label).any (fun domain =>
      config.mailZone.any fun zone => isDomainHeld data domain zone tenant)

/-- `OPEN_STATUSES`. -/
def openStatuses : List Status := [.pending, .verified, .processing]

/-- `generate_label`: the first free one. -/
def generateLabel (config : Config) (data : Data) (organization request : String) : Option String :=
  (labelsFor fold organization).find? fun label =>
    !isReserved label && !isTaken config data label request none openStatuses

/-- The label a request was given. -/
def Request.given (request : Request) : Option String := request.label.filter (· ≠ "")

/-- **`reserve_label`**, under the lock: the request's label as it is checked in `data`; `none` is a
raise. -/
def reserveLabel (config : Config) (data : Data) (request : Request) : Option String :=
  match request.given with
  | some label =>
      if isReserved label || isTaken config data label request.name request.tenant [.processing] then none
      else some label
  | none => generateLabel fold config data request.organization request.name

/-! ## Jobs -/

/-- Where a `process_request` job stands. The request's row is locked from its load to the reservation,
and written by its own job only until it has a site: what the job has loaded is what is committed. -/
inductive Phase
  /-- Before the label lock. -/
  | reading (view : ReadView Data)
  /-- It holds the lock and checks next. -/
  | locked (view : Data)
  /-- The label is reserved and committed, and the lock given back. -/
  | reserved
  | closed

/-- What is committed, the holder of the label lock, and the job of each request. -/
structure State where
  data : Data
  holder : Option String
  jobs : String → Option Phase

def State.initial (data : Data) : State := ⟨data, none, fun _ => none⟩

inductive Action
  /-- A request is made; it is Pending, or Verified at once. -/
  | submit (request : Request)
  /-- A worker starts a job, which loads the request. -/
  | start (request : String)
  /-- A plain read. -/
  | read (request : String)
  | lock (request : String)
  /-- `reserve_label` under the lock: the check, the write, the commit, and the lock given back. -/
  | reserve (request : String)
  /-- The tenant and the claimed site of a request, and the commit. -/
  | claim (request tenant site : String)
  /-- The job raises, before or after the reservation: the request is Failed. -/
  | fail (request : String)
  /-- The worker dies. -/
  | die (request : String)
  /-- The site's own job completes the request. -/
  | complete (request : String)
  /-- `retry` of a request without a site. -/
  | retry (request : String)

/-- A request written back. -/
def Data.put (data : Data) (request : Request) : Data :=
  { data with requests := data.requests.put request }

/-- Moves a job on. -/
def State.setPhase (s : State) (request : String) (phase : Phase) : State :=
  { s with jobs := Function.update s.jobs request (some phase) }

/-- The end of a job: the lock goes where it has it. -/
def State.finish (s : State) (request : String) : State :=
  { s.setPhase request .closed with holder := if s.holder = some request then none else s.holder }

/-- A job may start: none of the request's is under way. -/
def State.isIdle (s : State) (request : String) : Bool :=
  match s.jobs request with
  | none => true
  | some .closed => true
  | some _ => false

/-- A pooled site, or a new one, gets the tenant and the label. -/
def claimSite (sites : List SuiteSite) (site tenant label : String) : List SuiteSite :=
  ⟨site, some label, some tenant, false⟩ :: sites.filter (·.name ≠ site)

/-- A site the claim may take: one in the pool, or a name that is new. -/
def isClaimable (sites : List SuiteSite) (site : String) : Bool :=
  (sites.filter (·.name = site)).all fun row => row.tenant.isNone && row.label.isNone && !row.dropped

variable (config : Config)

/-- **One step of the system.** -/
def step (s : State) : Action → Option State
  | .submit request =>
      if request.status = .pending ∨ request.status = .verified then
        (s.data.requests.insert request).map fun requests =>
          { s with data := { s.data with requests := requests } }
      else none
  | .start name =>
      (s.data.requests.get name).bind fun request =>
        if s.isIdle name ∧ (request.status = .verified ∨ request.status = .processing) ∧
            request.suiteSite = none then
          some (s.setPhase name (.reading .unopened))
        else none
  | .read name =>
      match s.jobs name with
      | some (.reading view) => some (s.setPhase name (.reading (view.read s.data)))
      | _ => none
  | .lock name =>
      match s.jobs name, s.holder with
      | some (.reading (.opened view)), none =>
          some { s.setPhase name (.locked view) with holder := some name }
      | _, _ => none
  | .reserve name =>
      match s.jobs name, s.data.requests.get name with
      | some (.locked view), some request =>
          match reserveLabel fold config view request with
          | some label =>
              some { s.finish name with
                data := s.data.put { request with label := some label, status := .processing }
                jobs := Function.update s.jobs name (some .reserved) }
          | none => some { s.finish name with data := s.data.put { request with status := .failed } }
      | _, _ => none
  | .claim name tenant site =>
      match s.jobs name, s.data.requests.get name with
      | some .reserved, some request =>
          request.label.bind fun label =>
            -- The label of a site is unique, and the pool gives a site to one claim.
            if s.data.sites.all (fun row => row.label ≠ some label) ∧
                isClaimable s.data.sites site ∧ request.tenant.getD tenant = tenant then
              some { s.finish name with data :=
                { s.data.put { request with
                    tenant := some tenant, status := .processing, suiteSite := some site } with
                  sites := claimSite s.data.sites site tenant label } }
            else none
      | _, _ => none
  | .fail name =>
      match s.jobs name, s.data.requests.get name with
      | some .closed, _ => none
      | some _, some request =>
          some { s.finish name with data := s.data.put { request with status := .failed } }
      | _, _ => none
  | .die name =>
      match s.jobs name with
      | some _ => some (s.finish name)
      | none => none
  | .complete name =>
      (s.data.requests.get name).bind fun request =>
        if request.status = .processing ∧ request.suiteSite ≠ none then
          some { s with data := s.data.put { request with status := .completed } }
        else none
  | .retry name =>
      (s.data.requests.get name).bind fun request =>
        if request.status = .failed ∧ request.suiteSite = none then
          some { s with data := s.data.put { request with status := .verified } }
        else none

/-! ## What a step does -/

/-- **What each step can do**, with its guards. -/
inductive Steps (s : State) : Action → State → Prop
  | submit (request : Request) (requests : Keyed String Request Request.name) :
      request.status = .pending ∨ request.status = .verified →
      s.data.requests.insert request = some requests →
      Steps s (.submit request) { s with data := { s.data with requests := requests } }
  | start (name : String) (request : Request) : s.data.requests.get name = some request →
      request.suiteSite = none → Steps s (.start name) (s.setPhase name (.reading .unopened))
  | read (name : String) (view : ReadView Data) : s.jobs name = some (.reading view) →
      Steps s (.read name) (s.setPhase name (.reading (view.read s.data)))
  | lock (name : String) (view : Data) : s.jobs name = some (.reading (.opened view)) →
      Steps s (.lock name) { s.setPhase name (.locked view) with holder := some name }
  | reserve (name : String) (view : Data) (request : Request) (label : String) :
      s.jobs name = some (.locked view) → s.data.requests.get name = some request →
      reserveLabel fold config view request = some label →
      Steps s (.reserve name) { s.finish name with
        data := s.data.put { request with label := some label, status := .processing }
        jobs := Function.update s.jobs name (some .reserved) }
  | refuse (name : String) (view : Data) (request : Request) :
      s.jobs name = some (.locked view) → s.data.requests.get name = some request →
      Steps s (.reserve name) { s.finish name with data := s.data.put { request with status := .failed } }
  | claim (name tenant site : String) (request : Request) (label : String) :
      s.jobs name = some .reserved → s.data.requests.get name = some request →
      request.label = some label → isClaimable s.data.sites site = true →
      Steps s (.claim name tenant site) { s.finish name with data :=
        { s.data.put { request with
            tenant := some tenant, status := .processing, suiteSite := some site } with
          sites := claimSite s.data.sites site tenant label } }
  | fail (name : String) (request : Request) : s.data.requests.get name = some request →
      Steps s (.fail name) { s.finish name with data := s.data.put { request with status := .failed } }
  | die (name : String) : Steps s (.die name) (s.finish name)
  | complete (name : String) (request : Request) : s.data.requests.get name = some request →
      request.status = .processing → request.suiteSite ≠ none →
      Steps s (.complete name)
        { s with data := s.data.put { request with status := .completed } }
  | retry (name : String) (request : Request) : s.data.requests.get name = some request →
      request.status = .failed →
      Steps s (.retry name) { s with data := s.data.put { request with status := .verified } }

theorem steps_of_step {s s' : State} {action : Action} (taken : step fold config s action = some s') :
    Steps fold config s action s' := by
  cases action with
  | submit request =>
    simp only [step] at taken
    split at taken
    case isTrue new =>
      obtain ⟨requests, inserted, rfl⟩ := Option.map_eq_some_iff.mp taken
      exact .submit request requests new inserted
    case isFalse => cases taken
  | start name =>
    obtain ⟨request, found, taken⟩ := Option.bind_eq_some_iff.mp taken
    split at taken
    case isTrue may =>
      obtain rfl := Option.some.inj taken
      exact .start name request found may.2.2
    case isFalse => cases taken
  | read name =>
    simp only [step] at taken
    split at taken
    case h_1 view here =>
      obtain rfl := Option.some.inj taken
      exact .read name view here
    case h_2 => cases taken
  | lock name =>
    simp only [step] at taken
    split at taken
    case h_1 view here free =>
      obtain rfl := Option.some.inj taken
      exact .lock name view here
    case h_2 => cases taken
  | reserve name =>
    simp only [step] at taken
    split at taken
    case h_1 view request here found =>
      split at taken
      case h_1 label reserved =>
        obtain rfl := Option.some.inj taken
        exact .reserve name view request label here found reserved
      case h_2 =>
        obtain rfl := Option.some.inj taken
        exact .refuse name view request here found
    case h_2 => cases taken
  | claim name tenant site =>
    simp only [step] at taken
    split at taken
    case h_1 request here found =>
      obtain ⟨label, named, taken⟩ := Option.bind_eq_some_iff.mp taken
      split at taken
      case isTrue may =>
        obtain rfl := Option.some.inj taken
        exact .claim name tenant site request label here found named may.2.1
      case isFalse => cases taken
    case h_2 => cases taken
  | fail name =>
    simp only [step] at taken
    split at taken
    case h_1 => cases taken
    case h_2 phase request _ here found =>
      obtain rfl := Option.some.inj taken
      exact .fail name request found
    case h_3 => cases taken
  | die name =>
    simp only [step] at taken
    split at taken
    case h_1 phase here =>
      obtain rfl := Option.some.inj taken
      exact .die name
    case h_2 => cases taken
  | complete name =>
    obtain ⟨request, found, taken⟩ := Option.bind_eq_some_iff.mp taken
    split at taken
    case isTrue may =>
      obtain rfl := Option.some.inj taken
      exact .complete name request found may.1 may.2
    case isFalse => cases taken
  | retry name =>
    obtain ⟨request, found, taken⟩ := Option.bind_eq_some_iff.mp taken
    split at taken
    case isTrue may =>
      obtain rfl := Option.some.inj taken
      exact .retry name request found may.1
    case isFalse => cases taken

/-! ## What is held -/

/-- Processing or Completed. -/
def Request.isActive (request : Request) : Bool :=
  request.status = .processing || request.status = .completed

/-- **Every label is held once**: by one request at most, and by no request and another tenant's live
site. -/
structure HeldOnce (data : Data) : Prop where
  once : ∀ request ∈ data.requests, ∀ other ∈ data.requests, request.isActive → other.isActive →
    ∀ label, request.given = some label → other.given = some label → request = other
  apart : ∀ request ∈ data.requests, request.isActive → ∀ label, request.given = some label →
    ∀ site ∈ data.sites, site.label = some label → site.dropped = false → site.tenant = request.tenant

/-- A request's label among the sites: nobody's while it has none, its tenant's once it has one. -/
structure Settled (sites : List SuiteSite) (request : Request) : Prop where
  free : request.isActive → ∀ label, request.given = some label → request.suiteSite = none →
    ∀ site ∈ sites, site.label = some label → site.dropped
  own : request.isActive → ∀ label, request.given = some label → request.suiteSite ≠ none →
    (∃ site ∈ sites, site.label = some label ∧ site.dropped = false) ∧
      ∀ site ∈ sites, site.label = some label → site.dropped = false → site.tenant = request.tenant
  completed : request.status = .completed → request.suiteSite ≠ none

/-- **The rows are consistent**: a label is held by one request, whose site, if any, has it. -/
structure Consistent (data : Data) : Prop where
  settled : ∀ request ∈ data.requests, Settled data.sites request
  once : ∀ request ∈ data.requests, ∀ other ∈ data.requests, request.isActive → other.isActive →
    ∀ label, request.given = some label → other.given = some label → request = other

theorem Consistent.heldOnce {data : Data} (here : Consistent data) : HeldOnce data := by
  refine ⟨here.once, ?_⟩
  intro request member active label named site there same live
  have settled := here.settled request member
  by_cases without : request.suiteSite = none
  · have gone := settled.free active label named without site there same
    rw [live] at gone
    cases gone
  · exact (settled.own active label named without).2 site there same live

theorem Settled.of_inactive {sites : List SuiteSite} {request : Request}
    (inactive : request.isActive = false) : Settled sites request := by
  refine ⟨?_, ?_, ?_⟩
  · intro active
    rw [inactive] at active
    cases active
  · intro active
    rw [inactive] at active
    cases active
  · intro completed
    simp [Request.isActive, completed] at inactive

/-- **One row written**, and the sites: it must be settled, the others too, and the label its own. -/
theorem Consistent.write {data : Data} {request : Request} (here : Consistent data) (changed : Request)
    (sites : List SuiteSite) (found : data.requests.get changed.name = some request)
    (settled : Settled sites changed)
    (others : ∀ other ∈ data.requests, other.name ≠ changed.name → Settled sites other)
    (alone : changed.isActive → ∀ label, changed.given = some label → ∀ other ∈ data.requests,
      other.isActive → other.given = some label → other.name = changed.name) :
    Consistent { data.put changed with sites := sites } := by
  obtain ⟨member, named⟩ := Keyed.get_eq_some.mp found
  have rows : ∀ {other : Request}, other ∈ (data.put changed).requests →
      other = changed ∨ (other ∈ data.requests ∧ other.name ≠ changed.name) :=
    fun there => (Keyed.mem_put member named).mp there
  refine ⟨?_, ?_⟩
  · intro other there
    rcases rows there with rfl | ⟨there, different⟩
    · exact settled
    · exact others other there different
  · intro first firstIn second secondIn firstActive secondActive label firstHas secondHas
    rcases rows firstIn with rfl | ⟨firstThere, firstOther⟩ <;>
      rcases rows secondIn with rfl | ⟨secondThere, secondOther⟩
    · rfl
    · exact absurd (alone firstActive label firstHas second secondThere secondActive secondHas) secondOther
    · exact absurd (alone secondActive label secondHas first firstThere firstActive firstHas) firstOther
    · exact here.once first firstThere second secondThere firstActive secondActive label firstHas secondHas

theorem Consistent.write_inactive {data : Data} {request : Request} (here : Consistent data)
    (changed : Request) (found : data.requests.get changed.name = some request)
    (inactive : changed.isActive = false) : Consistent (data.put changed) := by
  refine here.write changed data.sites found (.of_inactive inactive)
    (fun other there _ => here.settled other there) ?_
  intro active
  rw [inactive] at active
  cases active

/-! ## A free label -/

/-- The labels `reserve_label` tries for a request. -/
def Request.tried (request : Request) : List String :=
  match request.given with
  | some label => [label]
  | none => labelsFor fold request.organization

/-- `is_taken` as `reserve_label` asks it for a request. -/
def Request.isTakenIn (request : Request) (data : Data) (label : String) : Bool :=
  match request.given with
  | some _ => isTaken config data label request.name request.tenant [.processing]
  | none => isTaken config data label request.name none openStatuses

theorem reserveLabel_eq_some {view : Data} {request : Request} {label : String}
    (reserved : reserveLabel fold config view request = some label) :
    label ∈ request.tried fold ∧ request.isTakenIn config view label = false := by
  unfold reserveLabel at reserved
  cases given : request.given with
  | some own =>
    rw [given] at reserved
    simp only at reserved
    split at reserved
    case isTrue => cases reserved
    case isFalse free =>
      obtain rfl := Option.some.inj reserved
      simp only [Bool.or_eq_true, not_or, Bool.not_eq_true] at free
      refine ⟨?_, ?_⟩
      · simp only [Request.tried, given, List.mem_singleton]
      · simp only [Request.isTakenIn, given]
        exact free.2
  | none =>
    rw [given] at reserved
    have free := List.find?_some reserved
    simp only [Bool.and_eq_true, Bool.not_eq_true'] at free
    refine ⟨?_, ?_⟩
    · simp only [Request.tried, given]
      exact List.mem_of_find?_eq_some reserved
    · simp only [Request.isTakenIn, given]
      exact free.2

variable {config}

theorem free_of_isTaken {data : Data} {label request : String} {tenant : Option String}
    {holders : List Status} (processing : .processing ∈ holders)
    (free : isTaken config data label request tenant holders = false) :
    (∀ site ∈ data.sites, site.label = some label → site.dropped) ∧
      ∀ other ∈ data.requests, other.label = some label → other.status = .processing →
        other.name = request := by
  simp only [isTaken, Bool.or_eq_false_iff] at free
  obtain ⟨⟨⟨⟨-, sites⟩, requests⟩, -⟩, -⟩ := free
  refine ⟨?_, ?_⟩
  · intro site there named
    have gone := List.any_eq_false.mp sites site there
    simpa [named] using gone
  · intro other there named status
    have mine := List.any_eq_false.mp requests other there
    simpa [named, status, processing] using mine

theorem Request.free_of_isTakenIn {data : Data} {request : Request} {label : String}
    (free : request.isTakenIn config data label = false) :
    (∀ site ∈ data.sites, site.label = some label → site.dropped) ∧
      ∀ other ∈ data.requests, other.label = some label → other.status = .processing →
        other.name = request.name := by
  unfold Request.isTakenIn at free
  split at free
  · exact free_of_isTaken (by decide) free
  · exact free_of_isTaken (by decide) free

theorem Request.label_of_given {request : Request} {label : String} (given : request.given = some label) :
    request.label = some label := by
  unfold Request.given at given
  exact (Option.filter_eq_some_iff.mp given).1

variable (config)

/-! ## The condition -/

/-- The view a job checks its label in. -/
def Phase.checks : Phase → Option Data
  | .locked view => some view
  | _ => none

/-- **The condition**: whenever a job reserves, each label it tries that is taken among the committed rows
is taken in its view. -/
def seesTaken (s : State) : Action → Prop
  | .reserve name => ∀ view ∈ (s.jobs name).bind Phase.checks, ∀ request ∈ s.data.requests.get name,
      ∀ label ∈ request.tried fold, request.isTakenIn config s.data label →
        request.isTakenIn config view label
  | _ => True

instance (s : State) (action : Action) : Decidable (seesTaken fold config s action) :=
  match action with
  | .reserve name => inferInstanceAs (Decidable (∀ view ∈ (s.jobs name).bind Phase.checks,
      ∀ request ∈ s.data.requests.get name, ∀ label ∈ request.tried fold,
        request.isTakenIn config s.data label → request.isTakenIn config view label))
  | .submit _ | .start _ | .read _ | .lock _ | .claim _ _ _ | .fail _ | .die _ | .complete _ | .retry _ =>
      inferInstanceAs (Decidable True)

/-! ## The invariant -/

/-- **Of each job under way**: its request has no site yet, and is Processing once its label is
reserved. -/
def Working (s : State) : Prop :=
  ∀ name phase, s.jobs name = some phase → phase ≠ .closed →
    ∃ request, s.data.requests.get name = some request ∧ request.suiteSite = none ∧
      (phase = .reserved → request.status = .processing)

variable {fold config} {s s' : State}

/-- A job moved on, over the same rows. -/
theorem Working.moved (here : Working s) (name : String) (phase : Phase)
    (own : phase ≠ .closed → ∃ request, s.data.requests.get name = some request ∧
      request.suiteSite = none ∧ (phase = .reserved → request.status = .processing)) :
    Working (s.setPhase name phase) := by
  intro other now there working
  rcases update_eq_some there with ⟨rfl, rfl⟩ | ⟨-, there⟩
  · exact own working
  · exact here _ _ there working

/-- **A request's row written**: the other jobs have theirs. -/
theorem Working.put (here : Working s) {request : Request} (changed : Request)
    (found : s.data.requests.get changed.name = some request) {sites : List SuiteSite}
    {holder : Option String} {phase : Phase}
    (own : phase ≠ .closed → changed.suiteSite = none ∧
      (phase = .reserved → changed.status = .processing)) :
    Working { data := { s.data.put changed with sites := sites }, holder := holder,
              jobs := Function.update s.jobs changed.name (some phase) } := by
  intro other now there working
  have row : (s.data.requests.put changed).get other =
      if other = changed.name then some changed else s.data.requests.get other := Keyed.get_put found
  rcases update_eq_some there with ⟨rfl, rfl⟩ | ⟨different, there⟩
  · rw [if_pos rfl] at row
    exact ⟨changed, row, own working⟩
  · rw [if_neg different] at row
    obtain ⟨request', found', rest⟩ := here _ _ there working
    exact ⟨request', row.trans found', rest⟩

theorem Working.put_idle (here : Working s) {request : Request} (changed : Request)
    (found : s.data.requests.get changed.name = some request)
    (site : changed.suiteSite = request.suiteSite)
    (status : request.suiteSite = none → request.status ≠ .processing) :
    Working { s with data := s.data.put changed } := by
  intro other now there working
  have row : (s.data.requests.put changed).get other =
      if other = changed.name then some changed else s.data.requests.get other := Keyed.get_put found
  obtain ⟨request', found', without, processing⟩ := here _ _ there working
  by_cases same : other = changed.name
  · subst same
    obtain rfl := Option.some.inj (found.symm.trans found')
    rw [if_pos rfl] at row
    exact ⟨changed, row, site.trans without, fun reserved => absurd (processing reserved) (status without)⟩
  · rw [if_neg same] at row
    exact ⟨request', row.trans found', without, processing⟩

/-- The rows are consistent and the jobs under way are at work on theirs. -/
structure Fine (s : State) : Prop where
  consistent : Consistent s.data
  working : Working s

/-- **A row that is written as Failed**, by its job. -/
theorem Fine.failed (here : Fine s) {name : String} {request : Request}
    (found : s.data.requests.get name = some request) :
    Fine { s.finish name with data := s.data.put { request with status := .failed } } := by
  obtain ⟨-, rfl⟩ := Keyed.get_eq_some.mp found
  refine ⟨here.consistent.write_inactive _ found rfl, ?_⟩
  exact here.working.put { request with status := .failed } found (absurd rfl)

/-- **A label that is reserved**: free among the committed rows, it is now held by this request. -/
theorem Consistent.reserve {data : Data} (here : Consistent data) {request : Request} {label : String}
    (found : data.requests.get request.name = some request) (without : request.suiteSite = none)
    (free : request.isTakenIn config data label = false) :
    Consistent (data.put { request with label := some label, status := .processing }) := by
  obtain ⟨sites, requests⟩ := Request.free_of_isTakenIn free
  have named : ∀ {label'}, ({ request with label := some label, status := .processing } : Request).given =
      some label' → label' = label := fun given => (Option.some.inj (Request.label_of_given given)).symm
  refine here.write { request with label := some label, status := .processing } data.sites found
    ⟨?_, ?_, ?_⟩ (fun other there _ => here.settled other there) ?_
  · intro _ label' given _ site there same
    rw [named given] at same
    exact sites site there same
  · intro _ _ _ present
    exact absurd without present
  · intro completed
    cases completed
  · intro _ label' given other there active otherGiven
    rw [named given] at otherGiven
    by_cases processing : other.status = .processing
    · exact requests other there (Request.label_of_given otherGiven) processing
    · -- A completed request has a live site of its label, which would be taken.
      have completed : other.status = .completed := by
        simpa [Request.isActive, processing] using active
      have settled := here.settled other there
      obtain ⟨⟨site, member, same, live⟩, -⟩ :=
        settled.own active label otherGiven (settled.completed completed)
      have gone := sites site member same
      rw [live] at gone
      cases gone

theorem mem_claimSite {sites : List SuiteSite} {site tenant label : String} {row : SuiteSite}
    (there : row ∈ claimSite sites site tenant label) :
    row = ⟨site, some label, some tenant, false⟩ ∨ row ∈ sites := by
  rcases List.mem_cons.mp there with rfl | there
  · exact Or.inl rfl
  · exact Or.inr (List.mem_of_mem_filter there)

theorem mem_claimSite_of_label {sites : List SuiteSite} {site tenant label label' : String}
    {row : SuiteSite} (claimable : isClaimable sites site) (there : row ∈ sites)
    (has : row.label = some label') : row ∈ claimSite sites site tenant label := by
  refine List.mem_cons_of_mem _ (List.mem_filter.mpr ⟨there, decide_eq_true ?_⟩)
  rintro rfl
  have pooled := List.all_eq_true.mp claimable row (List.mem_filter.mpr ⟨there, decide_eq_true rfl⟩)
  simp [has] at pooled

/-- The claim of one label leaves the requests of the others as they were. -/
theorem Settled.claim {sites : List SuiteSite} {site tenant label : String} {other : Request}
    (settled : Settled sites other) (claimable : isClaimable sites site)
    (apart : other.isActive → other.given ≠ some label) :
    Settled (claimSite sites site tenant label) other := by
  refine ⟨?_, ?_, settled.completed⟩
  · intro active label' given without row inside same
    rcases mem_claimSite inside with rfl | inside
    · exact absurd (given.trans same.symm) (apart active)
    · exact settled.free active label' given without row inside same
  · intro active label' given present
    obtain ⟨⟨own, inside, same, live⟩, tenants⟩ := settled.own active label' given present
    refine ⟨⟨own, mem_claimSite_of_label claimable inside same, same, live⟩, ?_⟩
    intro row inside same live
    rcases mem_claimSite inside with rfl | inside
    · exact absurd (given.trans same.symm) (apart active)
    · exact tenants row inside same live

/-- **A claimed site** gets the label of a request that alone holds it. -/
theorem Consistent.claim {data : Data} (here : Consistent data) {request : Request}
    {label tenant site : String} (found : data.requests.get request.name = some request)
    (processing : request.status = .processing) (without : request.suiteSite = none)
    (labelled : request.label = some label) (claimable : isClaimable data.sites site) :
    Consistent { data.put { request with
        tenant := some tenant, status := .processing, suiteSite := some site } with
      sites := claimSite data.sites site tenant label } := by
  obtain ⟨member, -⟩ := Keyed.get_eq_some.mp found
  have active : request.isActive := by simp [Request.isActive, processing]
  have alone : ∀ label', request.given = some label' → ∀ other ∈ data.requests, other.isActive →
      other.given = some label' → other.name = request.name := by
    intro label' given other there otherActive otherGiven
    rw [here.once request member other there active otherActive label' given otherGiven]
  refine here.write { request with tenant := some tenant, status := .processing, suiteSite := some site }
    _ found ⟨?_, ?_, ?_⟩ ?_ (fun _ => alone)
  · intro _ _ _ none
    cases none
  · intro _ label' given _
    have same : label' = label :=
      Option.some.inj ((Request.label_of_given (show request.given = some label' from given)).symm.trans labelled)
    subst same
    refine ⟨⟨_, List.mem_cons_self, rfl, rfl⟩, ?_⟩
    intro row inside same live
    rcases mem_claimSite inside with rfl | inside
    · rfl
    · have gone := (here.settled request member).free active label' given without row inside same
      rw [live] at gone
      cases gone
  · intro completed
    cases completed
  · intro other there different
    refine (here.settled other there).claim claimable ?_
    intro otherActive otherGiven
    have own : request.given = some label := by
      rw [← otherGiven]
      unfold Request.given
      rw [labelled, Request.label_of_given otherGiven]
    exact different (alone label own other there otherActive otherGiven)

theorem fine_step {action : Action} (here : Fine s) (sees : seesTaken fold config s action)
    (steps : Steps fold config s action s') : Fine s' := by
  cases steps with
  | submit request requests new inserted =>
    obtain ⟨fresh, members⟩ := Keyed.mem_insert inserted
    have inactive : request.isActive = false := by
      rcases new with pending | verified
      · simp [Request.isActive, pending]
      · simp [Request.isActive, verified]
    refine ⟨⟨?_, ?_⟩, ?_⟩
    · intro other there
      rcases (members other).mp there with rfl | there
      · exact .of_inactive inactive
      · exact here.consistent.settled other there
    · intro first firstIn second secondIn firstActive secondActive
      rcases (members first).mp firstIn with rfl | firstIn
      · simp [inactive] at firstActive
      rcases (members second).mp secondIn with rfl | secondIn
      · simp [inactive] at secondActive
      exact here.consistent.once first firstIn second secondIn firstActive secondActive
    · intro name phase there working
      obtain ⟨own, found, rest⟩ := here.working _ _ there working
      refine ⟨own, (Keyed.get_insert inserted).trans ?_, rest⟩
      obtain ⟨member, named⟩ := Keyed.get_eq_some.mp found
      rw [if_neg (named ▸ fresh own member), found]
  | start name request found without =>
    refine ⟨here.consistent, here.working.moved name _ ?_⟩
    intro _
    exact ⟨request, found, without, nofun⟩
  | read name view there =>
    refine ⟨here.consistent, here.working.moved name _ ?_⟩
    intro _
    obtain ⟨request, found, without, -⟩ := here.working _ _ there nofun
    exact ⟨request, found, without, nofun⟩
  | lock name view there =>
    obtain ⟨request, found, without, -⟩ := here.working _ _ there nofun
    exact ⟨here.consistent, here.working.moved name (.locked view)
      fun _ => ⟨request, found, without, nofun⟩⟩
  | reserve name view request label there found reserved =>
    obtain ⟨tried, seen⟩ := reserveLabel_eq_some fold config reserved
    have free : request.isTakenIn config s.data label = false := by
      by_contra taken
      have checked : (s.jobs name).bind Phase.checks = some view := by rw [there]; rfl
      have sees := sees view checked request found label tried (Bool.not_eq_false _ ▸ taken)
      rw [seen] at sees
      cases sees
    obtain ⟨own, found', without, -⟩ := here.working _ _ there nofun
    obtain rfl := Option.some.inj (found.symm.trans found')
    obtain ⟨-, rfl⟩ := Keyed.get_eq_some.mp found
    refine ⟨here.consistent.reserve found without free, ?_⟩
    exact here.working.put { request with label := some label, status := .processing } found
      fun _ => ⟨without, fun _ => rfl⟩
  | refuse name view request there found => exact here.failed found
  | claim name tenant site request label there found labelled claimable =>
    obtain ⟨own, found', without, processing⟩ := here.working _ _ there nofun
    obtain rfl := Option.some.inj (found.symm.trans found')
    obtain ⟨-, rfl⟩ := Keyed.get_eq_some.mp found
    refine ⟨here.consistent.claim found (processing rfl) without labelled claimable, ?_⟩
    exact here.working.put { request with
      tenant := some tenant, status := .processing, suiteSite := some site } found (absurd rfl)
  | fail name request found => exact here.failed found
  | die name => exact ⟨here.consistent, here.working.moved name .closed (absurd rfl)⟩
  | complete name request found processing present =>
    obtain ⟨member, rfl⟩ := Keyed.get_eq_some.mp found
    have active : request.isActive := by simp [Request.isActive, processing]
    have settled := here.consistent.settled request member
    refine ⟨here.consistent.write { request with status := .completed } s.data.sites found
      ⟨fun _ => settled.free active, fun _ => settled.own active, fun _ => present⟩
      (fun other there _ => here.consistent.settled other there) ?_, ?_⟩
    · intro _ label given other there otherActive otherGiven
      rw [here.consistent.once request member other there active otherActive label given otherGiven]
    · exact here.working.put_idle { request with status := .completed } found rfl (absurd · present)
  | retry name request found failed =>
    obtain ⟨-, rfl⟩ := Keyed.get_eq_some.mp found
    refine ⟨here.consistent.write_inactive _ found rfl, ?_⟩
    exact here.working.put_idle { request with status := .verified } found rfl fun _ => by simp [failed]

/-! ## No two signups get one label -/

variable (fold config)

/-- **No two signups get one label** in a run in which every job, as it reserves, sees as taken each label
it tries that is taken by then: from rows that are consistent, in every state reached. -/
theorem labels_held_once (data : Data) (consistent : Consistent data) (s : State)
    (reached : Reaches (step fold config) (seesTaken fold config) (State.initial data) s) :
    HeldOnce s.data := by
  have first : Fine (State.initial data) := by
    refine ⟨consistent, ?_⟩
    intro name phase there
    cases there
  have fine : Fine s := by
    refine reached.invariant Fine first ?_
    intro here there action fine sees taken
    exact fine_step fine sees (steps_of_step fold config taken)
  exact fine.consistent.heldOnce

/-- Two verified requests of organizations of one name, with a label of their own or none. -/
def twoRequests (label : Option String) : Data where
  requests := ⟨[⟨"1", .verified, label, "Acme Inc.", none, none⟩,
    ⟨"2", .verified, label, "Acme", none, none⟩], show ["1", "2"].Nodup by decide⟩
  sites := []
  clusterLabels := []
  domains := []
  records := []

/-- Sites and mail in one zone. -/
def oneZone : Config := ⟨some "example.com", some "example.com"⟩

theorem twoRequests_consistent (label : Option String) : Consistent (twoRequests label) := by
  have inactive : ∀ request ∈ (twoRequests label).requests, request.isActive = false := by
    intro request there
    rcases List.mem_cons.mp there with rfl | there
    · rfl
    · rw [List.mem_singleton.mp there]
      rfl
  refine ⟨fun request there => .of_inactive (inactive request there), ?_⟩
  intro request there other _ active
  rw [inactive request there] at active
  cases active

/-- Both gave one label, and the second job reads once the first one has committed: it is refused. -/
theorem labels_held_once_in_turn :
    ∃ s, Reaches (step String.toLower oneZone) (seesTaken String.toLower oneZone)
        (State.initial (twoRequests (some "acme"))) s ∧
      s.data.requests.rows.map (·.status) = [.completed, .failed] ∧ HeldOnce s.data := by
  have meets : RunMeets (step String.toLower oneZone) (seesTaken String.toLower oneZone)
      (State.initial (twoRequests (some "acme")))
      [.start "1", .read "1", .start "2", .lock "1", .reserve "1", .read "2", .lock "2", .reserve "2",
        .claim "1" "tenant-1" "site-1", .complete "1"] := by
    decide
  have seen : (run (step String.toLower oneZone) (State.initial (twoRequests (some "acme")))
      [.start "1", .read "1", .start "2", .lock "1", .reserve "1", .read "2", .lock "2", .reserve "2",
        .claim "1" "tenant-1" "site-1", .complete "1"]).map
      (fun s => s.data.requests.rows.map (·.status)) = some [.completed, .failed] := by
    decide
  obtain ⟨s, ends, statuses⟩ := Option.map_eq_some_iff.mp seen
  have reached := reaches_of_run meets ends
  exact ⟨s, reached, statuses, labels_held_once String.toLower oneZone _
    (twoRequests_consistent (some "acme")) s reached⟩

/-- **Both jobs have read when the first one commits**: the second one waits for the lock, and then makes
the same label in its own view. -/
theorem one_label_twice :
    ¬ ∀ data, Consistent data → ∀ s, Reaches (step String.toLower oneZone) anyStep (State.initial data) s →
      HeldOnce s.data := by
  intro held
  have seen : (run (step String.toLower oneZone) (State.initial (twoRequests none))
      [.start "1", .start "2", .read "1", .read "2", .lock "1", .reserve "1", .lock "2", .reserve "2",
        .die "1", .die "2"]).map (fun s => s.data.requests.rows) =
      some [⟨"1", .processing, some "acme", "Acme Inc.", none, none⟩,
        ⟨"2", .processing, some "acme", "Acme", none, none⟩] := by decide +kernel
  obtain ⟨s, ends, rows⟩ := Option.map_eq_some_iff.mp seen
  have once := (held _ (twoRequests_consistent none) s
    (reaches_of_run (runMeets_of_forall fun _ _ _ => trivial) ends)).once
  have members : ∀ request, request ∈ s.data.requests ↔ request ∈ s.data.requests.rows := fun _ => Iff.rfl
  simp only [members, rows] at once
  have same := once _ List.mem_cons_self _ (List.mem_cons_of_mem _ List.mem_cons_self) rfl rfl "acme" rfl rfl
  exact absurd (congrArg Request.name same) (by decide)

end SuiteCloud.Hosting.Labels
