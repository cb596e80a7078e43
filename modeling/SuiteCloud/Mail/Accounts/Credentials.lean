/-
**An account's app passwords and API keys: the rows and the cluster's credentials.**

`suite_cloud/mail/tenancy/account_credentials.py` with the saves of `MailAccount`. The cluster holds the
credentials, rows of the account mirror them. What a save adds or changes is sent while it runs, what it
takes out is revoked once it is committed, through the account's own session; the role of a disabled
account shuts that session.

* `validateKind` — the rows of one kind, as `validate` leaves them: loaded from the cluster where nothing
  is mirrored yet, the Suite Cloud row placed first, room made for it, and within the limit.
* `State` — the account, its cluster, and when each credential was made.
* `step` — **an insert, an adoption, a form opened, a save or a rotation**, taken to its commit and the
  revocations after it; `none` where it raises.

A credential's id tells when it was made. The lines of `allowed_ips` are a list, and what `parse_ips`
refuses is left out; so are the known names of quotas, and the secrets.
-/

import Mathlib.Data.List.Sort
import Mathlib.Data.String.Basic
import SuiteCloud.Library.Transition
import SuiteCloud.Mail.Accounts.Model

namespace SuiteCloud.Mail.Accounts

open SuiteCloud.Library

/-! ## Kinds and limits -/

/-- `SITE_LOGIN`. -/
def siteLogin : String := "Suite Cloud"

/-- `DEFAULT_LIMIT`. -/
def defaultLimit : ℤ := 10

/-- `KINDS`. -/
def kinds : List Kind := [.appPassword, .apiKey]

/-- `Kind.quota`. -/
def Kind.quota : Kind → String
  | .appPassword => "maxAppPasswords"
  | .apiKey => "maxApiKeys"

/-- `Kind.always_present`: the Suite Cloud row is minted whenever it is missing. -/
def Kind.alwaysPresent : Kind → Bool
  | .appPassword => true
  | .apiKey => false

/-- `doc.quota_map().get(kind.quota)`. -/
def MailAccount.limit (account : MailAccount) (kind : Kind) : Option ℤ :=
  (Dict.ofList account.quotas).get kind.quota

/-- `quotas.validate`: listed once, above 0. -/
def validateQuotas (account : MailAccount) : Bool :=
  decide (account.quotas.map Prod.fst).Nodup && account.quotas.all fun row => decide (0 < row.2)

/-- `apply_default_limits`. -/
def applyDefaultLimits (lifted : List String) (account : MailAccount) : MailAccount :=
  kinds.foldl (fun account kind =>
    if (account.limit kind).isNone ∧ kind.quota ∉ lifted then
      { account with quotas := account.quotas ++ [(kind.quota, defaultLimit)] }
    else account) account

/-- `limit and len(rows) > limit`. -/
def isOver (limit : Option ℤ) (rows : List CredentialRow) : Bool :=
  limit.any fun limit => decide (limit ≠ 0 ∧ limit < (rows.length : ℤ))

/-! ## Rows -/

/-- `as_row`. -/
def asRow (id : ℕ) (credential : Credential) : CredentialRow where
  credentialId := some id
  description := if credential.description = "" then toString id else credential.description
  expiresAt := credential.expiresAt
  allowedIps := credential.allowedIps

/-- `str(row.created_at or "")`. -/
def stamp (createdAt : ℕ → String) (row : CredentialRow) : String :=
  (row.credentialId.map createdAt).getD ""

/-- The order of `load`: the Suite Cloud row first, then by age. -/
def IsEarlier (createdAt : ℕ → String) (row other : CredentialRow) : Prop :=
  if row.description = siteLogin then other.description = siteLogin → stamp createdAt row ≤ stamp createdAt other
  else other.description ≠ siteLogin ∧ stamp createdAt row ≤ stamp createdAt other

instance decidableIsEarlier (createdAt : ℕ → String) : DecidableRel (IsEarlier createdAt) := fun row other =>
  if named : row.description = siteLogin then
    decidable_of_iff (other.description = siteLogin → stamp createdAt row ≤ stamp createdAt other)
      (by rw [IsEarlier, if_pos named])
  else
    decidable_of_iff (other.description ≠ siteLogin ∧ stamp createdAt row ≤ stamp createdAt other)
      (by rw [IsEarlier, if_neg named])

/-- The credentials of a kind as rows. -/
def liveRows (cluster : Cluster) (createdAt : ℕ → String) (kind : Kind) : List CredentialRow :=
  ((List.range cluster.next).filterMap fun id =>
    (cluster.credentials kind id).map (asRow id)).insertionSort (IsEarlier createdAt)

/-- The rows of a kind, and the list a load has fetched in this request. -/
structure Loaded where
  rows : List CredentialRow
  fetched : List CredentialRow

/-- `load`: the cluster's list, and the rows not created there yet. -/
def load (cluster : Cluster) (createdAt : ℕ → String) (kind : Kind) (rows : List CredentialRow) : Loaded where
  rows := liveRows cluster createdAt kind ++ rows.filter (·.credentialId.isNone)
  fetched := liveRows cluster createdAt kind

/-- The row `append_site_login` appends. -/
def loginRow : CredentialRow := ⟨none, siteLogin, none, []⟩

/-- `min(existing, key=...)`: the first of the oldest. -/
def oldest (createdAt : ℕ → String) : List CredentialRow → Option CredentialRow
  | [] => none
  | row :: rest =>
      match oldest createdAt rest with
      | none => some row
      | some other => if stamp createdAt row ≤ stamp createdAt other then some row else some other

/-- `make_room`: one row goes in each round. -/
def makeRoom (createdAt : ℕ → String) (limit : Option ℤ) : ℕ → List CredentialRow → List CredentialRow
  | 0, rows => rows
  | rounds + 1, rows =>
      if isOver limit rows then
        match oldest createdAt (rows.filter fun row =>
            row.credentialId.isSome && decide (row.description ≠ siteLogin)) with
        | none => rows
        | some row => makeRoom createdAt limit rounds (rows.erase row)
      else rows

/-- `place_site_login` and `reorder`. -/
def placeSiteLogin (createdAt : ℕ → String) (kind : Kind) (limit : Option ℤ) (rows : List CredentialRow) :
    Option (List CredentialRow) :=
  match rows.filter (·.description = siteLogin) with
  | [] =>
      if kind.alwaysPresent then
        let room := makeRoom createdAt limit (rows.length + 1) (rows ++ [loginRow])
        some (loginRow :: room.filter (·.description ≠ siteLogin))
      else some rows
  | [login] => some (login :: rows.filter (·.description ≠ siteLogin))
  | _ => none

/-- The checks of a row: `minted` is the flag of the row that Suite Cloud itself has appended. -/
def isRowAllowed (previous : Dict ℕ CredentialRow) (minted : Bool) (row : CredentialRow) : Bool :=
  let was := row.credentialId.bind previous.get
  let flagged := minted && row.credentialId.isNone
  !(was.any (fun was => was.description = siteLogin) && decide (row.description ≠ siteLogin)) &&
    !(decide (row.description = siteLogin) && !flagged &&
      (was.any (fun was => was.description ≠ siteLogin) || row.credentialId.isNone))

/-- `keep_mirror`: the same rows, in any order. -/
def keepMirror (before after : List CredentialRow) : Bool :=
  after.all (· ∈ before) && before.all (· ∈ after)

/-! ## `validate` -/

section Validate

variable (cluster : Cluster) (createdAt : ℕ → String)

/-- The rows `validate` starts from: loaded where the saved account has none of the kind. -/
def startRows (before : Option MailAccount) (edit : Edit) (kind : Kind) : Loaded :=
  if (before.any fun account => account.credentials kind = [] ∧ account.stalwartId.isSome) ∧
      edit.loaded kind = [] then
    load cluster createdAt kind (edit.after.credentials kind)
  else ⟨edit.after.credentials kind, edit.loaded kind⟩

/-- `baseline`, by id: what a load fetched, else the saved rows. -/
def previousRows (before : Option MailAccount) (fetched : List CredentialRow) (kind : Kind) :
    Dict ℕ CredentialRow :=
  let rows := if fetched = [] then (before.map (·.credentials kind)).getD [] else fetched
  Dict.ofList (rows.filterMap fun row => row.credentialId.map (·, row))

/-- **One kind** in the loop of `validate`. -/
def validateKind (before : Option MailAccount) (minted : Bool) (edit : Edit) (kind : Kind) : Option Loaded :=
  if before.any fun account => account.enabled = false then
    if keepMirror ((before.map (·.credentials kind)).getD []) (edit.after.credentials kind) then
      some ⟨edit.after.credentials kind, edit.loaded kind⟩
    else none
  else
    let start := startRows cluster createdAt before edit kind
    if start.rows.all (isRowAllowed (previousRows before start.fetched kind) minted) then
      (placeSiteLogin createdAt kind (edit.after.limit kind) start.rows).bind fun rows =>
        if isOver (edit.after.limit kind) rows then none else some ⟨rows, start.fetched⟩
    else none

/-- A value for each kind. -/
def perKind {α : Type} (appPassword apiKey : α) : Kind → α
  | .appPassword => appPassword
  | .apiKey => apiKey

/-- **`validate`**, with `quotas.validate` before it and the mandatory descriptions after it. -/
def validate (before : Option MailAccount) (minted : Kind → Bool) (edit : Edit) : Option Edit :=
  if validateQuotas edit.after then
    (validateKind cluster createdAt before (minted .appPassword) edit .appPassword).bind fun appPasswords =>
      (validateKind cluster createdAt before (minted .apiKey) edit .apiKey).bind fun apiKeys =>
        if (appPasswords.rows ++ apiKeys.rows).all (·.description ≠ "") then
          some
            { edit with
              after := { edit.after with credentials := perKind appPasswords.rows apiKeys.rows }
              loaded := perKind appPasswords.fetched apiKeys.fetched }
        else none
  else none

end Validate

/-! ## Saves -/

/-- The account, its cluster, and when each credential was made. -/
structure State where
  account : Option MailAccount
  cluster : Cluster
  createdAt : ℕ → String

/-- The disabled role is set: the account's own session is refused. -/
def isShut (cluster : Cluster) : Bool :=
  match cluster.account.roles with
  | .user => false
  | .custom ids => (disabledRole cluster).any (· ∈ ids)

def Call.isConnect : Call → Bool
  | .connect => true
  | _ => false

/-- The rows saved: each new one has the id its credential was given. -/
def assign : ℕ → List CredentialRow → List CredentialRow
  | _, [] => []
  | next, row :: rest =>
      match row.credentialId with
      | none => { row with credentialId := some next } :: assign (next + 1) rest
      | some _ => row :: assign next rest

/-- The account saved: the credentials of one kind are created before those of the next. -/
def Edit.saved (edit : Edit) (next : ℕ) : MailAccount :=
  { edit.after with
    credentials := perKind (assign next (edit.after.credentials .appPassword))
      (assign (next + (added edit .appPassword).length) (edit.after.credentials .apiKey)) }

theorem issued_revoke (cluster : Cluster) (ids : Kind → List ℕ) (kind : Kind) (id : ℕ)
    (later : cluster.next ≤ id) : (if id ∈ ids kind then none else cluster.credentials kind id) = none := by
  rw [cluster.issued kind id later, ite_self]

/-- The cluster without the credentials of these ids. -/
def Cluster.revoke (cluster : Cluster) (ids : Kind → List ℕ) : Cluster :=
  { cluster with
    credentials := fun kind id => if id ∈ ids kind then none else cluster.credentials kind id
    issued := issued_revoke cluster ids }

/-- **The commit of a save and the revocations after it**, which the account's own session makes. -/
def State.commit (s : State) (before : MailAccount) (edit : Edit) (sent : List Call) (now : String) : State :=
  let cluster := sent.foldl accept s.cluster
  { account := some (edit.saved s.cluster.next)
    cluster := if isShut cluster then cluster else cluster.revoke (gone before edit)
    createdAt := fun id => if s.cluster.next ≤ id then now else s.createdAt id }

/-- The calls of a save, all of them accepted: the account's own session has to be open. -/
def State.push (s : State) (before : MailAccount) (edit : Edit) (calls : Calls Call Unit) (now : String) :
    Option State :=
  if isShut s.cluster ∧ calls.sent.any Call.isConnect then none
  else calls.ends.map fun _ => s.commit before edit calls.sent now

/-- A save of an account there is. -/
def State.save (ids : Ids) (s : State) (before : MailAccount) (minted : Kind → Bool) (edit : Edit)
    (now : String) : Option State :=
  (validate s.cluster s.createdAt (some before) minted edit).bind fun edit =>
    s.push before edit (onUpdate ids s.cluster before edit) now

/-- `MailAccount.after_insert`, once the account is on the cluster. -/
def afterInsert (cluster : Cluster) (blank : MailAccount) (edit : Edit) : Calls Call Unit :=
  (Calls.send (pushKind blank edit .appPassword)).bind fun _ =>
    (Calls.send (pushKind blank edit .apiKey)).bind fun _ =>
      (pushEnabled cluster blank edit.after).bind fun _ =>
        .send (exemptionCalls cluster blank edit.after)

/-- The document as it is opened: `row_by_id` and `rotate_site_login` load the kinds they need. -/
def State.opened (s : State) (account : MailAccount) (loads : Kind → Bool) : Edit :=
  let rows := fun kind =>
    if loads kind then load s.cluster s.createdAt kind (account.credentials kind)
    else ⟨account.credentials kind, []⟩
  { after := { account with credentials := fun kind => (rows kind).rows }
    password := none
    loaded := fun kind => (rows kind).fetched
    skipPush := false }

/-- What a request makes of it. -/
def State.edited (s : State) (account : MailAccount) (loads : Kind → Bool) (after : MailAccount)
    (password : Option String) : Edit :=
  { s.opened account loads with
    after := after
    password := password }

/-- The rows of a request: rows of the document, each once, and new ones. -/
def isDrawn (rows document : List CredentialRow) : Bool :=
  decide (rows.filterMap (·.credentialId)).Nodup &&
    rows.all fun row => row.credentialId.all fun id => id ∈ document.filterMap (·.credentialId)

/-! ## Runs -/

/-- What a run is made of. `now` is the time the credentials of a save are made at. -/
inductive Action
  /-- The insert of a document, with the object and the id the cluster gives it. -/
  | insert (document : MailAccount) (lifted : List String) (account : Account) (id now : String)
  /-- The adoption of an account that the cluster has, credentials and all. -/
  | adopt (document : MailAccount) (cluster : Cluster) (createdAt : ℕ → String) (id : String)
  /-- The form is opened. -/
  | refresh
  /-- A save of the form or of the tenant API, which may have loaded some kinds first. -/
  | save (loads : Kind → Bool) (after : MailAccount) (password : Option String) (now : String)
  /-- `rotate_site_login`. -/
  | rotate (kind : Kind) (now : String)

/-- No account yet. -/
def State.initial (cluster : Cluster) : State := ⟨none, cluster, fun _ => ""⟩

/-- The cluster with an account that was created: it has the User role, and no credentials. -/
def Cluster.created (cluster : Cluster) (account : Account) : Cluster :=
  { cluster with
    account := { account with roles := .user }
    credentials := fun _ _ => none
    issued := fun _ _ _ => rfl }

/-- What the account was created as: enabled, not exempt, without credentials. -/
def MailAccount.blank (account : MailAccount) : MailAccount :=
  { account with
    credentials := fun _ => []
    enabled := true
    skipOutboundScan := false }

/-- The document inserted. -/
def inserting (document : MailAccount) (lifted : List String) (id : String) : Edit where
  after := applyDefaultLimits lifted { document with stalwartId := some id }
  password := none
  loaded := fun _ => []
  skipPush := false

/-- The insert. -/
def State.insert (s : State) (document : MailAccount) (lifted : List String) (account : Account)
    (id now : String) : Option State :=
  (validate (s.cluster.created account) s.createdAt none (fun _ => false) (inserting document lifted id)).bind
    fun edit =>
      { s with cluster := s.cluster.created account }.push edit.after.blank edit
        (afterInsert (s.cluster.created account) edit.after.blank edit) now

/-- The adoption: no row is mirrored yet. -/
def State.adopt (document : MailAccount) (cluster : Cluster) (createdAt : ℕ → String) (id : String) : State :=
  ⟨some { document with
      stalwartId := some id
      enabled := !isShut cluster
      credentials := fun _ => [] }, cluster, createdAt⟩

/-- `refresh`: the form opens on the cluster's lists, for a disabled account on the mirror. -/
def State.refresh (s : State) (account : MailAccount) : State :=
  if account.stalwartId.isSome ∧ account.enabled then
    { s with
      account := some
        { account with
          credentials := fun kind => (load s.cluster s.createdAt kind (account.credentials kind)).rows } }
  else s

/-- The document that `rotate_site_login` saves. -/
def State.rotated (s : State) (before : MailAccount) (kind : Kind) : Edit :=
  let opened := s.opened before fun other => decide (other = kind) && decide (before.credentials kind = [])
  let rows := (opened.after.credentials kind).filter (·.description ≠ siteLogin)
  { opened with
    after := { opened.after with
      credentials := Function.update opened.after.credentials kind
        (if kind.alwaysPresent then rows else rows ++ [loginRow]) } }

/-- **One step**; `none` where it raises. -/
def step (ids : Ids) (s : State) : Action → Option State
  | .insert document lifted account id now =>
      if s.account.isNone ∧ kinds.all (fun kind => (document.credentials kind).all (·.credentialId.isNone)) then
        s.insert document lifted account id now
      else none
  | .adopt document cluster createdAt id =>
      if s.account.isNone then some (.adopt document cluster createdAt id) else none
  | .refresh => s.account.map s.refresh
  | .save loads after password now =>
      s.account.bind fun before =>
        if before.enabled ∨ kinds.all (!loads ·) then
          if after.stalwartId = before.stalwartId ∧ kinds.all (fun kind =>
              isDrawn (after.credentials kind) ((s.opened before loads).after.credentials kind)) then
            s.save ids before (fun _ => false) (s.edited before loads after password) now
          else none
        else none
  | .rotate kind now =>
      s.account.bind fun before =>
        if before.enabled then
          s.save ids before (fun other => decide (other = kind) && !kind.alwaysPresent)
            (s.rotated before kind) now
        else none

end SuiteCloud.Mail.Accounts
