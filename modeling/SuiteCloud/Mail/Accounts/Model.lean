/-
**A Mail Account saved: `on_update` and the calls it sends to the cluster.**

`MailAccount.on_update`, `push_scan_exemption`, `push_enabled` and `set_password` of
`suite_cloud/mail/doctype/mail_account/mail_account.py`, with `push_kind` of `account_credentials.py`,
`set_exempt` of `outbound_scan.py`, the payloads of `sync.py` and the calls of
`suite_cloud/mail/stalwart/directory.py`.

* `MailAccount` and `Edit` — the document saved before, and what this save holds: the document, the
  password typed in, and the credentials loaded from the cluster in this request.
* `Cluster` — the account, its credentials and the scan-exempt keys of the cluster, with the id the
  next credential gets.
* `onUpdate` — **the calls of a save, in order**, and where it raises.
* `accept` — what a call does that is accepted; `rollBack` — what the rollback hooks of a save do then.

A call is one request to the cluster's API, or the login as the account itself. What the session of the
management client takes is left out.
-/

import Mathlib.Data.Finset.Basic
import Mathlib.Data.List.Perm.Basic
import SuiteCloud.Library.Calls
import SuiteCloud.Library.Dict
import SuiteCloud.Mail.Tenancy.Addresses

namespace SuiteCloud.Mail.Accounts

open SuiteCloud.Library SuiteCloud.Mail.Tenancy

/-! ### The document -/

structure AliasRow where
  aliasEmail : String
  enabled : Bool
  description : Option String
  deriving DecidableEq

/-- `KINDS`: app passwords, then API keys. -/
inductive Kind
  | appPassword
  | apiKey
  deriving DecidableEq

/-- A Mail Credential row. -/
structure CredentialRow where
  credentialId : Option ℕ
  description : String
  expiresAt : Option String
  allowedIps : List String
  deriving DecidableEq

structure MailAccount where
  email : String
  stalwartId : Option String
  skipOutboundScan : Bool
  displayName : Option String
  locale : String
  timeZone : Option String
  quotas : List (String × ℤ)
  aliases : List AliasRow
  groups : List String
  disableReceiving : Bool
  credentials : Kind → List CredentialRow
  enabled : Bool

/-- What a save holds besides the document before it: the document, `flags.password`,
`flags.credential_baseline` and `flags.skip_push`. -/
structure Edit where
  after : MailAccount
  password : Option String
  loaded : Kind → List CredentialRow
  skipPush : Bool

/-- The Stalwart ids of Mail Domains and Mail Groups, where they are on the mail server. -/
structure Ids where
  domain : String → Option String
  group : String → Option String

/-! ### The cluster -/

structure AliasPayload where
  name : String
  domainId : String
  enabled : Bool
  description : Option String
  deriving DecidableEq

inductive PermissionKind
  | inherit
  | merge
  | replace
  deriving DecidableEq

structure Permissions where
  kind : PermissionKind
  enabled : Finset String
  disabled : Finset String
  deriving DecidableEq

/-- `roles_payload`: the built-in User role, or custom ones. -/
inductive Roles
  | user
  | custom (ids : Finset String)
  deriving DecidableEq

/-- The account as the cluster has it. -/
structure Account where
  description : Option String
  locale : Option String
  timeZone : Option String
  quotas : Finset (String × ℤ)
  aliases : List AliasPayload
  memberGroupIds : Finset String
  permissions : Permissions
  roles : Roles
  password : Option String
  deriving DecidableEq

structure Credential where
  description : String
  expiresAt : Option String
  allowedIps : List String
  deriving DecidableEq

/-- The account, its credentials, the exempt keys and the roles there are. Ids are given in order. -/
structure Cluster where
  account : Account
  credentials : Kind → ℕ → Option Credential
  exemptKeys : List String
  roles : List (String × String)
  next : ℕ
  issued : ∀ kind id, next ≤ id → credentials kind id = none

/-- The fields of an update; `none` is one that is not in it. -/
structure Patch where
  description : Option (Option String)
  locale : Option String
  timeZone : Option (Option String)
  quotas : Option (Finset (String × ℤ))
  aliases : Option (List AliasPayload)
  memberGroupIds : Option (Finset String)
  permissions : Option Permissions
  deriving DecidableEq

def Patch.empty : Patch := ⟨none, none, none, none, none, none, none⟩

/-- An account with the fields of an update in it. -/
def Patch.apply (patch : Patch) (account : Account) : Account :=
  { account with
    description := patch.description.getD account.description
    locale := (patch.locale.map some).getD account.locale
    timeZone := patch.timeZone.getD account.timeZone
    quotas := patch.quotas.getD account.quotas
    aliases := patch.aliases.getD account.aliases
    memberGroupIds := patch.memberGroupIds.getD account.memberGroupIds
    permissions := patch.permissions.getD account.permissions }

/-! ### Calls -/

inductive Call
  | readExemptKeys
  | createExemptKey (email : String)
  | deleteExemptKey (email : String)
  | reloadLookupStores
  | readPermissions
  | updateAccount (patch : Patch)
  /-- The login as the account itself. -/
  | connect
  | createCredential (kind : Kind) (credential : Credential)
  | updateCredential (kind : Kind) (id : ℕ) (credential : Credential)
  | readRoles
  | setRoles (roles : Roles)
  | readCredentials
  | setPassword (password : String)

/-- What is written of a credential; an id the cluster has not is not written. -/
def writeCredential (credentials : Kind → ℕ → Option Credential) (kind : Kind) (id : ℕ)
    (credential : Credential) : Kind → ℕ → Option Credential := fun other otherId =>
  if other = kind ∧ otherId = id then (credentials kind id).map fun _ => credential
  else credentials other otherId

/-- What a new credential leaves. -/
def addCredential (credentials : Kind → ℕ → Option Credential) (kind : Kind) (id : ℕ)
    (credential : Credential) : Kind → ℕ → Option Credential := fun other otherId =>
  if other = kind ∧ otherId = id then some credential else credentials other otherId

/-- **What an accepted call does.** -/
def accept (cluster : Cluster) : Call → Cluster
  | .createExemptKey email => { cluster with exemptKeys := cluster.exemptKeys ++ [email] }
  | .deleteExemptKey email => { cluster with exemptKeys := cluster.exemptKeys.erase email }
  | .updateAccount patch => { cluster with account := patch.apply cluster.account }
  | .createCredential kind credential =>
      { cluster with
        credentials := addCredential cluster.credentials kind cluster.next credential
        next := cluster.next + 1
        issued := by
          intro other id le
          rw [addCredential, if_neg (by omega)]
          exact cluster.issued other id (by omega) }
  | .updateCredential kind id credential =>
      { cluster with
        credentials := writeCredential cluster.credentials kind id credential
        issued := by
          intro other otherId le
          unfold writeCredential
          split
          · next same =>
            rw [← same.2, cluster.issued kind otherId le, Option.map_none]
          · exact cluster.issued other otherId le }
  | .setRoles roles => { cluster with account := { cluster.account with roles := roles } }
  | .setPassword password =>
      { cluster with account := { cluster.account with password := some password } }
  | .readExemptKeys => cluster
  | .reloadLookupStores => cluster
  | .readPermissions => cluster
  | .connect => cluster
  | .readRoles => cluster
  | .readCredentials => cluster

/-- **The rollback hooks of a save**: `revoke` of every credential it created. Those are the ones from
the first id it was given on. -/
def rollBack (first : ℕ) (cluster : Cluster) : Cluster :=
  { cluster with
    credentials := fun kind id => if first ≤ id then none else cluster.credentials kind id
    issued := by
      intro kind id le
      split
      · rfl
      · exact cluster.issued kind id le }

/-! ### `on_update` -/

/-- `set_exempt`. -/
def setExempt (cluster : Cluster) (email : String) (isExempt : Bool) : List Call :=
  .readExemptKeys ::
    if isExempt ∧ email ∉ cluster.exemptKeys then [.createExemptKey email, .reloadLookupStores]
    else if ¬ isExempt ∧ email ∈ cluster.exemptKeys then
      [.deleteExemptKey email, .reloadLookupStores]
    else []

/-- `push_scan_exemption`, where it changed. -/
def exemptionCalls (cluster : Cluster) (before after : MailAccount) : List Call :=
  if before.skipOutboundScan = after.skipOutboundScan then []
  else setExempt cluster after.email after.skipOutboundScan

/-- `quota_map`. -/
def quotaMap (account : MailAccount) : Finset (String × ℤ) := (Dict.ofList account.quotas).toFinset

/-- `aliases_payload`, which raises for a domain that is not on the mail server. -/
def aliasesPayload (ids : Ids) (account : MailAccount) : Option (List AliasPayload) :=
  account.aliases.mapM fun row =>
    (ids.domain (domainPart row.aliasEmail)).map fun domainId =>
      ⟨localPart row.aliasEmail, domainId, row.enabled, row.description.filter (· ≠ "")⟩

/-- `aliases_changed`. -/
def aliasesChanged (before after : MailAccount) : Bool :=
  let key := fun row : AliasRow => (row.aliasEmail, row.enabled, row.description.getD "")
  decide (¬ (before.aliases.map key).Perm (after.aliases.map key))

/-- `group_ids_payload`, which raises for a group that is not on the mail server. -/
def groupIdsPayload (ids : Ids) (account : MailAccount) : Option (Finset String) :=
  (account.groups.mapM ids.group).map List.toFinset

/-- A field of the patch that may raise, where it changed. -/
def ifChanged {α : Type} (changed : Bool) (value : Option α) : Option (Option α) :=
  if changed then value.map some else some none

/-- The patch of a save, but for the permissions. -/
def profilePatch (ids : Ids) (before after : MailAccount) : Option Patch :=
  (ifChanged (aliasesChanged before after) (aliasesPayload ids after)).bind fun aliases =>
    (ifChanged (decide (¬ before.groups.Perm after.groups)) (groupIdsPayload ids after)).map
      fun groups =>
        { description :=
            if before.displayName = after.displayName then none
            else some (after.displayName.filter (· ≠ ""))
          locale := if before.locale = after.locale then none else some after.locale
          timeZone := if before.timeZone = after.timeZone then none else some after.timeZone
          quotas := if quotaMap before = quotaMap after then none else some (quotaMap after)
          aliases := aliases
          memberGroupIds := groups
          permissions := none }

/-- `RECEIVE_PERMISSION`. -/
def receivePermission : String := "emailReceive"

/-- `with_permission_disabled`. -/
def withPermissionDisabled (permissions : Permissions) (permission : String) (disabled : Bool) :
    Permissions :=
  let denied := if disabled then insert permission permissions.disabled
    else permissions.disabled.erase permission
  let kind := if permissions.kind = .inherit then .merge else permissions.kind
  if kind = .merge ∧ permissions.enabled = ∅ ∧ denied = ∅ then ⟨.inherit, ∅, ∅⟩
  else ⟨kind, permissions.enabled, denied⟩

/-- The patch of a save, with the permissions the cluster has read into it. -/
def withPermissions (cluster : Cluster) (before after : MailAccount) (profile : Patch) : Patch :=
  if before.disableReceiving = after.disableReceiving then profile
  else { profile with
    permissions := some (withPermissionDisabled cluster.account.permissions receivePermission
      after.disableReceiving) }

/-- The calls of the patch. -/
def updateCalls (cluster : Cluster) (before after : MailAccount) (profile : Patch) : List Call :=
  let patch := withPermissions cluster before after profile
  (if before.disableReceiving = after.disableReceiving then [] else [Call.readPermissions]) ++
    if patch = .empty then [] else [Call.updateAccount patch]

/-- `baseline`: what the cluster held before this save, by id. -/
def baseline (before : MailAccount) (edit : Edit) (kind : Kind) : Dict ℕ CredentialRow :=
  let rows := if edit.loaded kind = [] then before.credentials kind else edit.loaded kind
  Dict.ofList (rows.filterMap fun row => row.credentialId.map (·, row))

/-- `credential`, and `patch`. -/
def CredentialRow.credential (row : CredentialRow) : Credential :=
  ⟨row.description, row.expiresAt, row.allowedIps⟩

/-- The rows to create. -/
def added (edit : Edit) (kind : Kind) : List CredentialRow :=
  (edit.after.credentials kind).filter (·.credentialId.isNone)

/-- The rows to update, with their id: known, and not as they were. -/
def changed (before : MailAccount) (edit : Edit) (kind : Kind) : List (ℕ × CredentialRow) :=
  (edit.after.credentials kind).filterMap fun row =>
    row.credentialId.bind fun id =>
      ((baseline before edit kind).get id).bind fun was => if was = row then none else some (id, row)

/-- The ids to revoke once the save is committed. -/
def gone (before : MailAccount) (edit : Edit) (kind : Kind) : List ℕ :=
  (baseline before edit kind).keys.filter fun id =>
    some id ∉ (edit.after.credentials kind).map (·.credentialId)

/-- `push_kind`. -/
def pushKind (before : MailAccount) (edit : Edit) (kind : Kind) : List Call :=
  if added edit kind = [] ∧ changed before edit kind = [] ∧ gone before edit kind = [] then []
  else .connect :: ((added edit kind).map (fun row => Call.createCredential kind row.credential) ++
    (changed before edit kind).map fun entry => Call.updateCredential kind entry.1 entry.2.credential)

/-- `DISABLED_ROLE_DESCRIPTION`. -/
def disabledRoleDescription : String := "suite-disabled"

/-- `client.roles.find_by_description(DISABLED_ROLE_DESCRIPTION)`: a role's id. -/
def disabledRole (cluster : Cluster) : Option String :=
  (cluster.roles.find? fun role => role.1 = disabledRoleDescription).map Prod.snd

/-- `push_enabled`, which raises where the cluster lacks the role. -/
def pushEnabled (cluster : Cluster) (before after : MailAccount) : Calls Call Unit :=
  if before.enabled = after.enabled then .done ()
  else if after.enabled then .send [.setRoles .user]
  else (Calls.send [.readRoles]).bind fun _ =>
    (Calls.ofOption (disabledRole cluster)).bind fun role => .send [.setRoles (.custom {role})]

/-- `MIN_PASSWORD_LENGTH`. -/
def minPasswordLength : ℕ := 8

/-- `set_password`, where one was given; a short one raises. -/
def setPassword (edit : Edit) : Calls Call Unit :=
  match edit.password.filter (· ≠ "") with
  | none => .done ()
  | some password =>
      (Calls.check (minPasswordLength ≤ password.length)).bind fun _ =>
        .send [.readCredentials, .setPassword password]

/-- The save reaches the cluster. -/
def Edit.pushes (edit : Edit) : Bool := edit.after.stalwartId.isSome && !edit.skipPush

/-- **`on_update`.** -/
def onUpdate (ids : Ids) (cluster : Cluster) (before : MailAccount) (edit : Edit) : Calls Call Unit :=
  if edit.pushes then
    (Calls.send (exemptionCalls cluster before edit.after)).bind fun _ =>
      (Calls.ofOption (profilePatch ids before edit.after)).bind fun profile =>
        (Calls.send (updateCalls cluster before edit.after profile)).bind fun _ =>
          (Calls.send (pushKind before edit .appPassword)).bind fun _ =>
            (Calls.send (pushKind before edit .apiKey)).bind fun _ =>
              (pushEnabled cluster before edit.after).bind fun _ => setPassword edit
  else .done ()

end SuiteCloud.Mail.Accounts
