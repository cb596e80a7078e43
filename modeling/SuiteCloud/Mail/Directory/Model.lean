/-
**The directory: tenants, domains, accounts, groups and lists.**

`validate` and `on_trash` of Suite Tenant, Mail Domain, Mail Account, Mail Group and Mailing List, with
`suite_cloud/mail/tenancy/addresses.py` (`assert_address_available`) and `suite_cloud/mail/tenancy/sync.py`
(`validate_aliases`). Documents are inserted, adopted, saved and deleted one at a time; each takes its
tenant and cluster from its domain whenever it is saved, and a domain takes its cluster from its tenant.

* `assertAddressAvailable`, `validateAliases`, `validateGroups` — the checks accounts, groups and lists
  share; `Form.validate` — what a save writes.
* `insertDocument`, `saveDocument`, `deleteDocument`, `insertDomain`, … — the operations.
* `step` — one of them, taken to its commit.

Checks that can only refuse (a live domain, proof of control, the tenant's limits, an active cluster, an
archived tenant) are an argument of the operation that makes them: `admitted`. What an adopted document
does not check is the argument's value `true`.
-/

import SuiteCloud.Library.Keyed
import SuiteCloud.Library.Transition
import SuiteCloud.Mail.Tenancy.Addresses

namespace SuiteCloud.Mail.Directory

open SuiteCloud.Library SuiteCloud.Mail.Tenancy

/-! ## Data -/

/-- `ADDRESS_DOCTYPES`. -/
inductive Doctype
  | mailAccount
  | mailGroup
  | mailingList
  deriving DecidableEq

def addressDoctypes : List Doctype := [.mailAccount, .mailGroup, .mailingList]

/-- A Mail Account, Mail Group or Mailing List; only an account has groups. -/
structure Document where
  doctype : Doctype
  name : String
  email : String
  domain : String
  tenant : String
  cluster : String
  aliases : List String
  groups : List String
  deriving DecidableEq

def Document.key (document : Document) : Doctype × String := (document.doctype, document.name)

/-- A Mail Domain. -/
structure MailDomain where
  name : String
  domainName : String
  tenant : String
  cluster : String
  egressPool : Option String
  deriving DecidableEq

/-- A Suite Tenant. -/
structure SuiteTenant where
  name : String
  stalwartCluster : Option String
  egressPool : Option String
  deriving DecidableEq

/-- An Egress IP Pool, whose cluster is set only once. -/
structure EgressIPPool where
  name : String
  cluster : String
  deriving DecidableEq

abbrev Documents := Keyed (Doctype × String) Document Document.key

structure State where
  tenants : Keyed String SuiteTenant SuiteTenant.name
  domains : Keyed String MailDomain MailDomain.name
  documents : Documents
  pools : Keyed String EgressIPPool EgressIPPool.name

/-- An empty directory. -/
def State.initial : State := ⟨∅, ∅, ∅, ∅⟩

/-! ## Addresses -/

/-- The parent of a Mail Address Alias row of this address, as one row is read. -/
def aliasParent (documents : Documents) (email : String) : Option (Doctype × String) :=
  (documents.rows.find? fun document => email ∈ document.aliases).map Document.key

/-- `assert_address_available`. -/
def assertAddressAvailable (documents : Documents) (email : String)
    (exclude : Option (Doctype × String)) : Bool :=
  addressDoctypes.all (fun doctype =>
      decide (exclude = some (doctype, email)) || (documents.get (doctype, email)).isNone) &&
    (aliasParent documents email).all fun parent => decide (some parent = exclude)

variable (platform : Platform)

/-- `validate_aliases`, of a document of this type, name, address and tenant. -/
def validateAliases (s : State) (doctype : Doctype) (name email tenant : String) :
    List String → List String → Option (List String)
  | _, [] => some []
  | seen, text :: rest =>
      (platform.validateEmailAddress text).bind fun aliasEmail =>
        if aliasEmail ≠ email ∧ aliasEmail ∉ seen ∧
            (s.domains.get (domainPart aliasEmail)).map (·.tenant) = some tenant ∧
            assertAddressAvailable s.documents aliasEmail (some (doctype, name)) = true then
          (validateAliases s doctype name email tenant (aliasEmail :: seen) rest).map (aliasEmail :: ·)
        else none

/-- `validate_groups`, of an account of this tenant. -/
def validateGroups (documents : Documents) (tenant : String) : List String → List String → Bool
  | _, [] => true
  | seen, group :: rest =>
      decide (group ∉ seen) &&
        decide ((documents.get (.mailGroup, group)).map (·.tenant) = some tenant) &&
        validateGroups documents tenant (group :: seen) rest

/-! ## Accounts, groups and lists -/

/-- What a caller fills in. -/
structure Form where
  tenant : Option String
  aliases : List String
  groups : List String

/-- `get_tenant_domain`. -/
def getTenantDomain (s : State) (tenant domainName : String) : Option MailDomain :=
  (s.domains.get (platform.normalizeDomain domainName)).filter (·.tenant = tenant)

/-- The domain of a document: the tenant's, where the form names one. -/
def findDomain (s : State) (form : Form) (domainName : String) : Option MailDomain :=
  match form.tenant with
  | some tenant => getTenantDomain platform s tenant domainName
  | none => s.domains.get domainName

/-- Only an account has groups. -/
def Form.groupsOf (form : Form) : Doctype → List String
  | .mailAccount => form.groups
  | _ => []

/-- A saved document is left out of the check of its own address. -/
def excluding (isNew : Bool) (key : Doctype × String) : Option (Doctype × String) :=
  if isNew then none else some key

/-- `validate` of a document: what is written, where nothing refuses it. -/
def Form.validate (form : Form) (s : State) (doctype : Doctype) (name given : String) (isNew : Bool) :
    Option Document :=
  (platform.validateEmailAddress given).bind fun email =>
    (findDomain platform s form (domainPart email)).bind fun domain =>
      if assertAddressAvailable s.documents email (excluding isNew (doctype, name)) &&
          validateGroups s.documents domain.tenant [] (form.groupsOf doctype) then
        (validateAliases platform s doctype name email domain.tenant [] form.aliases).map fun aliases =>
          ⟨doctype, name, email, domain.name, domain.tenant, domain.cluster, aliases, form.groupsOf doctype⟩
      else none

/-- An insert: `autoname`, `validate`, and the row. -/
def State.insertDocument (s : State) (doctype : Doctype) (email : String) (form : Form) (admitted : Bool) :
    Option State :=
  (platform.validateEmailAddress email).bind fun name =>
    (form.validate platform s doctype name name true).bind fun document =>
      if admitted then (s.documents.insert document).map fun documents => { s with documents := documents }
      else none

/-- A save; `email` is set only once. -/
def State.saveDocument (s : State) (doctype : Doctype) (name : String) (form : Form) : Option State :=
  (s.documents.get (doctype, name)).bind fun stored =>
    (form.validate platform s doctype name stored.email false).bind fun document =>
      if document.email = stored.email then some { s with documents := s.documents.put document } else none

/-- The member rows of a group, gone. -/
def leaveGroup (documents : Documents) (group : String) : Documents :=
  documents.mapRows (fun document => { document with groups := document.groups.filter (· ≠ group) })
    fun _ => rfl

/-- A delete; the members of a group leave it. -/
def State.deleteDocument (s : State) (doctype : Doctype) (name : String) : Option State :=
  (s.documents.get (doctype, name)).map fun _ =>
    let documents := s.documents.erase (doctype, name)
    { s with documents := if doctype = .mailGroup then leaveGroup documents name else documents }

/-! ## Domains -/

/-- The pool is one of the cluster's. -/
def isPoolOf (s : State) (pool : Option String) (cluster : String) : Bool :=
  pool.all fun name => decide ((s.pools.get name).map (·.cluster) = some cluster)

/-- An insert of a domain. -/
def State.insertDomain (s : State) (domainName tenant : String) (pool : Option String)
    (adopting admitted : Bool) : Option State :=
  (platform.validateDomainName domainName).bind fun name =>
    (platform.validateDomainName name).bind fun domainName =>
      (s.tenants.get tenant).bind fun owner =>
        owner.stalwartCluster.bind fun cluster =>
          if (adopting || (admitted && (s.domains.get domainName).isNone)) && isPoolOf s pool cluster then
            (s.domains.insert ⟨name, domainName, tenant, cluster, pool⟩).map fun domains =>
              { s with domains := domains }
          else none

/-- A save of a domain; `domain_name` and `tenant` are set only once. -/
def State.saveDomain (s : State) (name : String) (pool : Option String) : Option State :=
  (s.domains.get name).bind fun stored =>
    (platform.validateDomainName stored.domainName).bind fun domainName =>
      (s.tenants.get stored.tenant).bind fun owner =>
        owner.stalwartCluster.bind fun cluster =>
          if domainName = stored.domainName ∧ isPoolOf s pool cluster = true then
            some { s with domains := s.domains.put { stored with cluster := cluster, egressPool := pool } }
          else none

/-- The address ends in the domain's: `like "%@<domain_name>"`. -/
def isUnder (domainName email : String) : Bool := ("@" ++ domainName).toList.isSuffixOf email.toList

/-- A delete of a domain: nothing is on it, and no alias. -/
def State.deleteDomain (s : State) (name : String) : Option State :=
  (s.domains.get name).bind fun stored =>
    if s.documents.rows.any (·.domain = name) ||
        s.documents.rows.any (fun document => document.aliases.any (isUnder stored.domainName)) then none
    else some { s with domains := s.domains.erase name }

/-! ## Tenants and pools -/

/-- `has_mail_data`. -/
def hasMailData (s : State) (tenant : String) (hasReports : Bool) : Bool :=
  s.documents.rows.any (·.tenant = tenant) || s.domains.rows.any (·.tenant = tenant) || hasReports

/-- `validate_stalwart_cluster`: what is written, where nothing refuses it. `before` is the stored
tenant, `admitted` says that the cluster is enabled and active. -/
def validateStalwartCluster (s : State) (before : Option SuiteTenant) (tenant : SuiteTenant)
    (hasReports admitted : Bool) : Option SuiteTenant :=
  if before.any (·.stalwartCluster ≠ tenant.stalwartCluster) && hasMailData s tenant.name hasReports then
    none
  else match tenant.stalwartCluster with
    | none => some { tenant with egressPool := none }
    | some cluster =>
        if before.bind (·.stalwartCluster) ≠ some cluster ∧ admitted = false then none
        else if isPoolOf s tenant.egressPool cluster then some tenant
        else none

/-- An insert of a tenant. -/
def State.insertTenant (s : State) (tenant : SuiteTenant) (admitted : Bool) : Option State :=
  (validateStalwartCluster s none tenant false admitted).bind fun tenant =>
    (s.tenants.insert tenant).map fun tenants => { s with tenants := tenants }

/-- A save of a tenant. -/
def State.saveTenant (s : State) (tenant : SuiteTenant) (hasReports admitted : Bool) : Option State :=
  (s.tenants.get tenant.name).bind fun stored =>
    (validateStalwartCluster s (some stored) tenant hasReports admitted).map fun tenant =>
      { s with tenants := s.tenants.put tenant }

/-- A delete of a tenant, which has no domain left. -/
def State.deleteTenant (s : State) (name : String) : Option State :=
  if s.domains.rows.any (·.tenant = name) then none
  else some { s with tenants := s.tenants.erase name }

/-- A new pool. -/
def State.insertPool (s : State) (pool : EgressIPPool) : Option State :=
  (s.pools.insert pool).map fun pools => { s with pools := pools }

/-- A delete of a pool that no tenant and no domain names. -/
def State.deletePool (s : State) (name : String) : Option State :=
  if s.tenants.rows.any (·.egressPool = some name) || s.domains.rows.any (·.egressPool = some name) then none
  else some { s with pools := s.pools.erase name }

/-! ## Runs -/

/-- What a run is made of. -/
inductive Action
  | insertDocument (doctype : Doctype) (email : String) (form : Form) (admitted : Bool)
  | saveDocument (doctype : Doctype) (name : String) (form : Form)
  | deleteDocument (doctype : Doctype) (name : String)
  | insertDomain (domainName tenant : String) (pool : Option String) (adopting admitted : Bool)
  | saveDomain (name : String) (pool : Option String)
  | deleteDomain (name : String)
  | insertTenant (tenant : SuiteTenant) (admitted : Bool)
  | saveTenant (tenant : SuiteTenant) (hasReports admitted : Bool)
  | deleteTenant (name : String)
  | insertPool (pool : EgressIPPool)
  | deletePool (name : String)

/-- One operation, taken to its commit; `none` where it raises. -/
def step (s : State) : Action → Option State
  | .insertDocument doctype email form admitted => s.insertDocument platform doctype email form admitted
  | .saveDocument doctype name form => s.saveDocument platform doctype name form
  | .deleteDocument doctype name => s.deleteDocument doctype name
  | .insertDomain domainName tenant pool adopting admitted =>
      s.insertDomain platform domainName tenant pool adopting admitted
  | .saveDomain name pool => s.saveDomain platform name pool
  | .deleteDomain name => s.deleteDomain name
  | .insertTenant tenant admitted => s.insertTenant tenant admitted
  | .saveTenant tenant hasReports admitted => s.saveTenant tenant hasReports admitted
  | .deleteTenant name => s.deleteTenant name
  | .insertPool pool => s.insertPool pool
  | .deletePool name => s.deletePool name

end SuiteCloud.Mail.Directory
