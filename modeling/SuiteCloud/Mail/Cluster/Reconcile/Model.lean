/-
**The directory of a cluster, compared and adopted.**

`directory_report` of `suite_cloud/mail/cluster/reconcile.py` and `adopt_directory` of
`suite_cloud/mail/tenancy/adopt.py`, over any directory of Suite Cloud and any content of the cluster.

* `Directory` — the rows Suite Cloud has; a name is that of one Mail Domain, an address that of one Mail
  Account, Mail Group or Mailing List.
* `Content` — what the cluster has, as its objects come back: a domain's name and an object's address
  are taken once, everything else may be anything or missing.
* `directoryReport` and `adoptDirectory` — the two functions. What an insert makes of a document is a
  parameter of the second: it may refuse any of them, and leaves any directory.

`str.lower` is a parameter, and a text that Python takes for false is one that is missing or empty.
-/

import SuiteCloud.Library.Dict

namespace SuiteCloud.Mail.Cluster.Reconcile

open SuiteCloud.Library

/-! ### Suite Cloud's directory -/

inductive Doctype
  | mailDomain
  | mailAccount
  | mailGroup
  | mailingList
  deriving DecidableEq

/-- A row of one of the four, named by its domain name or address. -/
structure Doc where
  doctype : Doctype
  name : String
  tenant : String
  cluster : String
  stalwartId : Option String
  deriving DecidableEq

/-- The Suite Tenants, with their cluster, and the rows. -/
structure Directory where
  tenants : List (String × Option String)
  docs : List Doc
  domain_once : ((docs.filter (·.doctype = .mailDomain)).map Doc.name).Nodup
  address_once : ((docs.filter (·.doctype ≠ .mailDomain)).map Doc.name).Nodup

/-- `frappe.get_all(doctype, {"cluster": cluster}, [name, "stalwart_id"])`. -/
def Directory.rows (directory : Directory) (doctype : Doctype) (cluster : String) :
    List (String × Option String) :=
  (directory.docs.filter fun doc => doc.doctype = doctype ∧ doc.cluster = cluster).map fun doc =>
    (doc.name, doc.stalwartId)

/-- `frappe.db.exists(doctype, name)`. -/
def Directory.recorded (directory : Directory) (doctype : Doctype) (name : String) : Bool :=
  directory.docs.any fun doc => doc.doctype = doctype ∧ doc.name = name

/-! ### The content of the cluster -/

structure LiveDomain where
  id : String
  name : String
  description : Option String
  isEnabled : Bool
  catchAllAddress : Option String
  subAddressing : Option String
  allowRelaying : Bool

structure LiveAlias where
  name : Option String
  domainId : Option String
  enabled : Bool
  description : Option String

/-- What accounts, groups and lists share. -/
structure Live where
  id : String
  name : Option String
  domainId : Option String
  emailAddress : Option String
  description : Option String
  aliases : List LiveAlias

inductive Kind
  | user
  | group
  deriving DecidableEq

/-- Users and groups share one object type. `customRoles` are the role ids where the roles are
`Custom`. -/
structure Principal extends Live where
  kind : Kind
  locale : Option String
  timeZone : Option String
  memberGroupIds : List String
  disabledPermissions : List String
  quotas : List (String × Int)
  customRoles : Option (List String)

structure LiveList extends Live where
  recipients : List String

/-- A text that is there and not empty. -/
def truthy (text : Option String) : Option String := text.filter (· ≠ "")

/-- The `names` of `_adopt_domains`: every domain of the cluster by its id. -/
def domainNames (domains : List LiveDomain) : Dict String String :=
  Dict.ofList (domains.map fun live => (live.id, live.name))

/-- `domains.get(live.get("domainId"))`. -/
def domainOf (domains : Dict String String) (id : Option String) : Option String :=
  id.bind domains.get

/-- The address of an object: the one the cluster gives it, else its name at its domain. -/
def addressOf (domains : Dict String String) (live : Live) : Option String :=
  match truthy live.emailAddress with
  | some email => some email
  | none =>
      match truthy live.name, truthy (domainOf domains live.domainId) with
      | some name, some domain => some (name ++ "@" ++ domain)
      | _, _ => none

/-- What a cluster has. It takes a domain's name, and an object's address, only once. -/
structure Content where
  domains : List LiveDomain
  principals : List Principal
  lists : List LiveList
  disabledRole : Option String
  domain_once : (domains.map LiveDomain.name).Nodup
  principal_once : (principals.filterMap fun live =>
    addressOf (domainNames domains) live.toLive).Nodup
  list_once : (lists.filterMap fun live => addressOf (domainNames domains) live.toLive).Nodup

/-- A Stalwart Cluster. -/
structure StalwartCluster where
  name : String
  defaultDomain : String

/-- `INFRA_ACCOUNTS`. -/
def infraAccounts : List String := ["admin", "relay"]

/-- `live.get("name") in INFRA_ACCOUNTS`. -/
def inInfraAccounts (name : Option String) : Bool := infraAccounts.any (name = some ·)

/-! ### `directory_report` -/

inductive ObjectType
  | domain
  | account
  | mailingList
  deriving DecidableEq

structure IdMismatch where
  objectType : ObjectType
  name : String
  ours : Option String
  live : String
  deriving DecidableEq

structure Report where
  missingOnStalwart : List (ObjectType × String)
  orphansOnStalwart : List (ObjectType × String)
  idMismatch : List IdMismatch

/-- **`_compare`.** -/
def compare (report : Report) (objectType : ObjectType) (ours : Dict String (Option String))
    (live : Dict String String) (ignore : List String) : Report where
  missingOnStalwart := report.missingOnStalwart ++ ours.filterMap fun entry =>
    if (live.get entry.1).isNone then some (objectType, entry.1) else none
  idMismatch := report.idMismatch ++ ours.filterMap fun entry =>
    match live.get entry.1 with
    | none => none
    | some id => if some id ≠ entry.2 then some ⟨objectType, entry.1, entry.2, id⟩ else none
  orphansOnStalwart := report.orphansOnStalwart ++ live.keys.filterMap fun name =>
    if (ours.get name).isNone ∧ name ∉ ignore then some (objectType, name) else none

/-- `live_domains`. -/
def liveDomains (content : Content) : Dict String String :=
  Dict.ofList (content.domains.map fun live => (live.name, live.id))

/-- `live_accounts`. -/
def liveAccounts (content : Content) : Dict String String :=
  Dict.ofList (content.principals.filterMap fun live =>
    if inInfraAccounts live.name then none
    else (truthy live.emailAddress).map (·, live.id))

/-- `live_lists`. -/
def liveLists (content : Content) : Dict String String :=
  Dict.ofList (content.lists.filterMap fun live => (truthy live.emailAddress).map (·, live.id))

/-- `ours_accounts`: the accounts, updated with the groups. -/
def oursAccounts (directory : Directory) (cluster : String) : Dict String (Option String) :=
  (Dict.ofList (directory.rows .mailAccount cluster)).update
    (Dict.ofList (directory.rows .mailGroup cluster))

/-- **`directory_report`.** -/
def directoryReport (directory : Directory) (cluster : StalwartCluster) (content : Content) : Report :=
  let report := compare ⟨[], [], []⟩ .domain (Dict.ofList (directory.rows .mailDomain cluster.name))
    (liveDomains content) [cluster.defaultDomain]
  let report := compare report .account (oursAccounts directory cluster.name)
    (liveAccounts content) []
  compare report .mailingList (Dict.ofList (directory.rows .mailingList cluster.name))
    (liveLists content) []

/-! ### `adopt_directory` -/

structure AliasRow where
  aliasEmail : String
  enabled : Bool
  description : Option String

/-- A document to insert, with the recipients added to a list after it. -/
inductive Form
  | mailDomain (domainName tenant stalwartId : String) (enabled isVerified : Bool)
      (description catchAllAddress : Option String) (subAddressing allowRelaying : Bool)
  | mailGroup (email tenant stalwartId : String) (description : Option String)
      (disableReceiving : Bool) (aliases : List AliasRow) (quotas : List (String × Int))
  | mailAccount (email tenant stalwartId : String) (enabled disableReceiving : Bool)
      (displayName locale timeZone : Option String) (aliases : List AliasRow)
      (quotas : List (String × Int)) (groups : List String)
  | mailingList (email tenant stalwartId : String) (description : Option String)
      (aliases : List AliasRow) (recipients : List String)

/-- The names adopted, and those skipped with the reason. -/
structure AdoptionReport where
  adopted : List (Doctype × String)
  skipped : List (Doctype × String × String)

/-- The directory and the report so far. -/
structure Adoption where
  directory : Directory
  report : AdoptionReport

def AdoptionReport.adopt (report : AdoptionReport) (doctype : Doctype) (name : String) :
    AdoptionReport :=
  { report with adopted := report.adopted ++ [(doctype, name)] }

def AdoptionReport.skip (report : AdoptionReport) (doctype : Doctype) (name reason : String) :
    AdoptionReport :=
  { report with skipped := report.skipped ++ [(doctype, name, reason)] }

section Adopt

variable (lower : String → String) (insert : Directory → Form → Except String Directory)

/-- `_insert`: one object per savepoint. -/
def insertForm (s : Adoption) (doctype : Doctype) (name : String) (form : Form) : Adoption :=
  match insert s.directory form with
  | .ok directory => ⟨directory, s.report.adopt doctype name⟩
  | .error reason => { s with report := s.report.skip doctype name reason }

/-- What each of the four does with an object: skipped where its record exists, else inserted. -/
def adoptObject (s : Adoption) (doctype : Doctype) (name : String) (form : Form) : Adoption :=
  if s.directory.recorded doctype name then
    { s with report := s.report.skip doctype name "already exists" }
  else insertForm insert s doctype name form

/-- `_address`. -/
def address (domains : Dict String String) (live : Live) : Option String :=
  (addressOf domains live).map lower

/-- `_alias_rows`. -/
def aliasRows (domains : Dict String String) (live : Live) : List AliasRow :=
  live.aliases.filterMap fun row =>
    match truthy row.name, truthy (domainOf domains row.domainId) with
    | some name, some domain => some ⟨lower (name ++ "@" ++ domain), row.enabled, row.description⟩
    | _, _ => none

/-- `_quota_rows`. -/
def quotaRows (live : Principal) : List (String × Int) := live.quotas.filter fun row => row.2 > 0

/-- `RECEIVE_PERMISSION`. -/
def receivePermission : String := "emailReceive"

def domainForm (tenant : String) (live : LiveDomain) : Form :=
  .mailDomain live.name tenant live.id live.isEnabled live.isEnabled live.description
    live.catchAllAddress (live.subAddressing ≠ some "Disabled") live.allowRelaying

/-- `_adopt_domains`. -/
def adoptDomains (tenant : String) (cluster : StalwartCluster) (domains : List LiveDomain) (s : Adoption) :
    Adoption :=
  domains.foldl (fun s live =>
    if live.name = cluster.defaultDomain then s
    else adoptObject insert s .mailDomain live.name (domainForm tenant live)) s

def groupForm (tenant : String) (domains : Dict String String) (email : String) (live : Principal) :
    Form :=
  .mailGroup email tenant live.id live.description (receivePermission ∈ live.disabledPermissions)
    (aliasRows lower domains live.toLive) (quotaRows live)

/-- `_adopt_groups`. -/
def adoptGroups (tenant : String) (domains : Dict String String) (groups : List Principal)
    (s : Adoption) : Adoption :=
  groups.foldl (fun s live =>
    match address lower domains live.toLive with
    | none => s
    | some email =>
        adoptObject insert s .mailGroup email (groupForm lower tenant domains email live)) s

/-- The `names` of `_adopt_groups`. -/
def groupNames (domains : Dict String String) (groups : List Principal) : Dict String String :=
  Dict.ofList (groups.filterMap fun live => (address lower domains live.toLive).map (live.id, ·))

def accountForm (tenant : String) (domains groups : Dict String String)
    (disabledRole : Option String) (email : String) (live : Principal) : Form :=
  let disabled := disabledRole.any fun role => live.customRoles.any (role ∈ ·)
  .mailAccount email tenant live.id (!disabled) (receivePermission ∈ live.disabledPermissions)
    live.description live.locale live.timeZone (aliasRows lower domains live.toLive)
    (quotaRows live) (live.memberGroupIds.filterMap groups.get)

/-- `_adopt_accounts`. -/
def adoptAccounts (tenant : String) (domains groups : Dict String String)
    (disabledRole : Option String) (users : List Principal) (s : Adoption) : Adoption :=
  users.foldl (fun s live =>
    if inInfraAccounts live.name then s
    else
      match address lower domains live.toLive with
      | none => s
      | some email =>
          adoptObject insert s .mailAccount email
            (accountForm lower tenant domains groups disabledRole email live)) s

def listForm (tenant : String) (domains : Dict String String) (email : String) (live : LiveList) :
    Form :=
  .mailingList email tenant live.id live.description (aliasRows lower domains live.toLive)
    live.recipients

/-- `_adopt_mailing_lists`. -/
def adoptMailingLists (tenant : String) (domains : Dict String String) (lists : List LiveList)
    (s : Adoption) : Adoption :=
  lists.foldl (fun s live =>
    match address lower domains live.toLive with
    | none => s
    | some email =>
        adoptObject insert s .mailingList email (listForm lower tenant domains email live)) s

/-- The other tenants of the cluster, and those whose rows are left there. -/
def others (directory : Directory) (tenant : String) (cluster : String) : List String :=
  (directory.tenants.filter fun row => row.2 = some cluster ∧ row.1 ≠ tenant).map Prod.fst ++
    (directory.docs.filter fun doc => doc.cluster = cluster ∧ doc.tenant ≠ tenant).map Doc.tenant

/-- **`adopt_directory`**, which raises where the cluster serves another tenant too. -/
def adoptDirectory (directory : Directory) (tenant : String) (cluster : StalwartCluster)
    (content : Content) : Option AdoptionReport :=
  if others directory tenant cluster.name ≠ [] then none
  else
    let domains := domainNames content.domains
    let groups := content.principals.filter (·.kind = .group)
    let users := content.principals.filter (·.kind = .user)
    let s := adoptDomains insert tenant cluster content.domains ⟨directory, ⟨[], []⟩⟩
    let s := adoptGroups lower insert tenant domains groups s
    let s := adoptAccounts lower insert tenant domains (groupNames lower domains groups)
      content.disabledRole users s
    some (adoptMailingLists lower insert tenant domains content.lists s).report

end Adopt

end SuiteCloud.Mail.Cluster.Reconcile
