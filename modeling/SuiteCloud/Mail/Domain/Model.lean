/-
**Mail Domain: validation, verification and what reaches the cluster.**

`suite_cloud/mail/doctype/mail_domain/mail_domain.py`. A stored domain and its object on the cluster
are written by inserts, adoptions, form saves, `refresh_dns_records` (also by `replace_dkim_keys` and
the hourly refresh), `verify_dns_records`, the recheck of vouched domains and deletes; `step` takes
one of them to its commit. The setting "Skip Domain Verification" may change between any two.

* `validate` — the three changes a save makes: proof of control lapses with a disabled domain, the
  setting vouches for an enabled one, and a change of the published discovery records relists them.
* `computeIsVerified`, `rebuildDnsRecords` — the record rows.
* `save`, `refreshDnsRecords`, `verifyDnsRecords`, … — the operations, with their pushes.

What a zone file lists is `build_domain_records`, a parameter; what the resolvers answer to a row's
lookup is an argument of the verification.
-/

import Mathlib.Logic.Function.Basic
import SuiteCloud.Library.Maps
import SuiteCloud.Library.Text
import SuiteCloud.Library.Transition

namespace SuiteCloud.Mail.Domain

open SuiteCloud.Library

/-! ## Record rows -/

/-- The categories of `GROUPS`. -/
inductive Category
  | spf
  | dkim
  | dmarc
  | mx
  | mtaSts
  | tlsRpt
  | srv
  | autoconfig
  | autodiscover
  | uaAutoConfig
  deriving DecidableEq

/-- The categories of the authentication group, the one that decides verification. -/
def Category.isAuthentication : Category → Bool
  | .spf => true
  | .dkim => true
  | .dmarc => true
  | _ => false

/-- A Mail Domain DNS Record. -/
structure Row where
  recordType : String
  host : String
  value : String
  category : Category
  isVerified : Bool
  deriving DecidableEq

/-- What a rebuilt row is matched by. -/
def Row.key (row : Row) : String × String × String := (row.recordType, row.host, strip row.value)

instance decidableMemKeys (key : String × String × String) (keys : List (String × String × String)) :
    Decidable (key ∈ keys) :=
  inferInstance

/-- SPF and DMARC must verify, plus at least one DKIM selector. -/
def computeIsVerified (rows : List Row) : Bool :=
  let records := rows.filter (·.category.isAuthentication)
  let listed (category : Category) := records.filter (·.category = category)
  [Category.spf, .dmarc].all (fun category =>
      !(listed category).isEmpty && (listed category).all (·.isVerified)) &&
    (listed .dkim).any (·.isVerified)

/-- The new rows, each verified where a row of its key was. -/
def keepVerification (rows fresh : List Row) : List Row :=
  fresh.map fun row =>
    { row with isVerified := decide (row.key ∈ (rows.filter (·.isVerified)).map Row.key) }

/-- A row as its lookup answered; a lookup without an answer leaves it. -/
def Row.check (row : Row) : Option Bool → Row
  | none => row
  | some verified => { row with isVerified := verified }

/-- The rows looked up one after the other; `answers` are the lookups' results in this order. -/
def checkRows (answers : ℕ → Option Bool) (rows : List Row) : List Row :=
  rows.mapIdx fun i row => row.check (answers i)

/-! ## The documents -/

/-- A stored Mail Domain. -/
structure MailDomain (Zone : Type) where
  tenant : String
  description : String
  catchAllAddress : Option String
  subAddressing : Bool
  allowRelaying : Bool
  enabled : Bool
  isVerified : Bool
  skipScheduledVerification : Bool
  verificationSkipped : Bool
  publishClientDiscoveryRecords : Bool
  rows : List Row
  dnsZoneFile : Zone

/-- The domain as the cluster has it. -/
structure ClusterDomain where
  description : String
  isEnabled : Bool
  catchAllAddress : Option String
  subAddressing : Bool
  allowRelaying : Bool
  deriving DecidableEq

variable {Zone : Type}

/-- Mail flows only for verified domains. -/
def MailDomain.isLive (doc : MailDomain Zone) : Bool := doc.enabled && doc.isVerified

def MailDomain.stalwartPatch (doc : MailDomain Zone) : ClusterDomain where
  description :=
    let tenant := doc.tenant
    if doc.description = "" then s!"Suite Tenant {tenant}" else doc.description
  isEnabled := doc.isLive
  catchAllAddress := doc.catchAllAddress
  subAddressing := doc.subAddressing
  allowRelaying := doc.allowRelaying

/-- `PUSHED_FIELDS`: a change to any of these reaches the cluster. -/
def MailDomain.pushedFields (doc : MailDomain Zone) :
    String × Option String × Bool × Bool × Bool × Bool :=
  (doc.description, doc.catchAllAddress, doc.subAddressing, doc.allowRelaying, doc.enabled,
    doc.isVerified)

/-! ## Validation -/

/-- Proof of control lapses with the domain: enabling it again needs a fresh verification. -/
def lapse (before : Option (MailDomain Zone)) (doc : MailDomain Zone) : MailDomain Zone :=
  match before with
  | none => doc
  | some stored =>
      if stored.enabled ≠ doc.enabled ∧ doc.enabled = false then { doc with isVerified := false }
      else doc

/-- With the setting on, a domain counts as verified for as long as it is enabled. -/
def vouch (skipped : Bool) (doc : MailDomain Zone) : MailDomain Zone :=
  if skipped then
    { doc with
      isVerified := doc.enabled
      skipScheduledVerification := true
      verificationSkipped := true }
  else doc

section Rows

variable (build : Zone → Bool → List Row)

/-- `rebuild_dns_records`: the rows of a zone file, verification kept. -/
def rebuildDnsRecords (doc : MailDomain Zone) (zone : Zone) : MailDomain Zone :=
  { doc with
    rows := keepVerification doc.rows (build zone doc.publishClientDiscoveryRecords)
    dnsZoneFile := zone }

/-- A change of which records are published relists the rows of the stored zone. -/
def relist (before : Option (MailDomain Zone)) (doc : MailDomain Zone) : MailDomain Zone :=
  match before with
  | none => doc
  | some stored =>
      if stored.publishClientDiscoveryRecords ≠ doc.publishClientDiscoveryRecords then
        rebuildDnsRecords build doc doc.dnsZoneFile
      else doc

/-- **`validate`**, of a document that may be added or changed. -/
def validate (skipped : Bool) (before : Option (MailDomain Zone)) (doc : MailDomain Zone) :
    MailDomain Zone :=
  relist build before (vouch skipped (lapse before doc))

/-! ## The operations -/

/-- The setting, the stored domains and the cluster's. -/
structure State (Name Zone : Type) where
  skipped : Bool
  domains : Name → Option (MailDomain Zone)
  onCluster : Name → Option ClusterDomain

/-- No domain is recorded yet; the cluster may hold some. -/
def State.initial {Name : Type} (skipped : Bool) (onCluster : Name → Option ClusterDomain) :
    State Name Zone :=
  ⟨skipped, fun _ => none, onCluster⟩

variable {Name : Type} [DecidableEq Name]

def State.store (s : State Name Zone) (name : Name) (doc : MailDomain Zone) : State Name Zone :=
  { s with domains := Function.update s.domains name (some doc) }

def State.push (s : State Name Zone) (name : Name) (live : ClusterDomain) : State Name Zone :=
  { s with onCluster := Function.update s.onCluster name (some live) }

/-- **A save**: validated and stored; pushed when a pushed field changed, unless pushes are skipped. -/
def save (s : State Name Zone) (name : Name) (doc : MailDomain Zone) (skipPush : Bool) :
    Option (State Name Zone) :=
  match s.domains name with
  | none => none
  | some stored =>
      let saved := validate build s.skipped (some stored) doc
      let s' := s.store name saved
      some (if skipPush = false ∧ stored.pushedFields ≠ saved.pushedFields then
        s'.push name saved.stalwartPatch else s')

/-- `refresh_dns_records`: rebuilds the rows from the zone read, and saves them without a push. -/
def refreshDnsRecords (s : State Name Zone) (name : Name) (zone : Zone) :
    Option (State Name Zone) :=
  match s.domains name with
  | none => none
  | some stored => save build s name (rebuildDnsRecords build stored zone) true

/-- The domain with its rows checked, and verified by them or on the cloud's word. -/
def verified (skipped : Bool) (answers : ℕ → Option Bool) (stored : MailDomain Zone) :
    MailDomain Zone :=
  { stored with
    rows := checkRows answers stored.rows
    isVerified := skipped || computeIsVerified (checkRows answers stored.rows) }

/-- **`verify_dns_records`**: cluster first, where liveness changes, then the rows. -/
def verifyDnsRecords (s : State Name Zone) (name : Name) (answers : ℕ → Option Bool) :
    Option (State Name Zone) :=
  match s.domains name, s.onCluster name with
  | some stored, some live =>
      let checked := verified s.skipped answers stored
      let pushed := if stored.isLive ≠ checked.isLive then
        s.push name { live with isEnabled := checked.isLive } else s
      save build pushed name checked true
  | _, _ => none

/-- `_recheck_vouched`: the mark and the exemption go, and the records are resolved. -/
def recheckVouched (s : State Name Zone) (name : Name) (answers : ℕ → Option Bool) :
    Option (State Name Zone) :=
  match s.domains name with
  | none => none
  | some stored =>
      if stored.verificationSkipped then
        (save build s name { stored with
            verificationSkipped := false
            skipScheduledVerification := false } false).bind
          fun saved => verifyDnsRecords build saved name answers
      else some s

/-- An insert: created on the cluster, and the records read from there. -/
def insert (s : State Name Zone) (name : Name) (doc : MailDomain Zone) (zone : Zone) :
    Option (State Name Zone) :=
  match s.domains name, s.onCluster name with
  | none, none =>
      let saved := validate build s.skipped none doc
      refreshDnsRecords build ((s.store name saved).push name saved.stalwartPatch) name zone
  | _, _ => none

/-- The document adoption records for a domain the cluster has. -/
def adopted (doc : MailDomain Zone) (live : ClusterDomain) : MailDomain Zone :=
  { doc with
    enabled := live.isEnabled
    isVerified := live.isEnabled
    description := live.description
    catchAllAddress := live.catchAllAddress
    subAddressing := live.subAddressing
    allowRelaying := live.allowRelaying }

/-- An adoption: the cluster has the domain; only what it publishes is read. -/
def adopt (s : State Name Zone) (name : Name) (doc : MailDomain Zone) (zone : Zone) :
    Option (State Name Zone) :=
  match s.domains name, s.onCluster name with
  | none, some live =>
      refreshDnsRecords build
        (s.store name (validate build s.skipped none (adopted doc live))) name zone
  | _, _ => none

inductive Action (Name Zone : Type)
  | insert (name : Name) (doc : MailDomain Zone) (zone : Zone)
  | adopt (name : Name) (doc : MailDomain Zone) (zone : Zone)
  /-- A form or API save of the document as edited. -/
  | save (name : Name) (doc : MailDomain Zone)
  /-- `refresh_dns_records`, also by the hourly refresh and after `replace_dkim_keys`. -/
  | refresh (name : Name) (zone : Zone)
  | verify (name : Name) (answers : ℕ → Option Bool)
  | recheck (name : Name) (answers : ℕ → Option Bool)
  | delete (name : Name)
  /-- Suite Cloud Settings are saved. -/
  | setSkipped (skipped : Bool)

/-- **One operation, to its commit.** -/
def step (s : State Name Zone) : Action Name Zone → Option (State Name Zone)
  | .insert name doc zone => insert build s name doc zone
  | .adopt name doc zone => adopt build s name doc zone
  | .save name doc => save build s name doc false
  | .refresh name zone => refreshDnsRecords build s name zone
  | .verify name answers => verifyDnsRecords build s name answers
  | .recheck name answers => recheckVouched build s name answers
  | .delete name => some { s with
      domains := Function.update s.domains name none
      onCluster := Function.update s.onCluster name none }
  | .setSkipped skipped => some { s with skipped := skipped }

end Rows

end SuiteCloud.Mail.Domain
