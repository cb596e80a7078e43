/-
**Mailing lists and their recipients.**

`suite_cloud/mail/doctype/mailing_list/mailing_list.py` and
`suite_cloud/mail/doctype/mailing_list_recipient/mailing_list_recipient.py`. A list's recipients are rows
of their own, enabled or not; the cluster holds the addresses of the enabled ones and is told of changes
only, key by key. Each operation gives the patches it sends and the table it leaves (`Calls`).

* `addRecipients`, `removeRecipients`, `setRecipients` — the bulk operations of a list.
* `insertRecipient`, `saveRecipient`, `deleteRecipient` — a single row and its pushes.
* `step` — one operation taken to its commit, every patch accepted.

The patch key `recipients/<e>` adds or removes the member `e`. The rows of all lists are in one table;
the cluster's object of a list is the one its `stalwart_id` names.
-/

import Mathlib.Data.Finset.Insert
import Mathlib.Data.Finset.Dedup
import Mathlib.Data.Finset.Erase
import Mathlib.Data.List.Sort
import Mathlib.Data.String.Basic
import SuiteCloud.Library.Calls
import SuiteCloud.Library.Dict
import SuiteCloud.Library.Transition
import SuiteCloud.Mail.Tenancy.Addresses

namespace SuiteCloud.Mail.Lists

open SuiteCloud.Library SuiteCloud.Mail.Tenancy

/-! ## Data -/

/-- A Mailing List; its name is its address. -/
structure MailingList where
  email : String
  tenant : String
  stalwartId : Option String
  deriving DecidableEq

/-- A Mailing List Recipient. -/
structure MailingListRecipient where
  name : ℕ
  mailingList : String
  email : String
  enabled : Bool
  tenant : String
  deriving DecidableEq

/-- The recipients of all lists, and the next name a row gets. -/
structure Table where
  rows : List MailingListRecipient
  next : ℕ
  deriving DecidableEq

/-- What a patch does to each member: `True` adds it, `None` removes it. -/
abbrev Patch := Dict String Bool

/-- A patch of the recipients of a list's object. -/
def applyPatch (recipients : Finset String) (patch : Patch) : Finset String :=
  patch.foldl (fun members entry =>
    if entry.2 then insert entry.1 members else members.erase entry.1) recipients

/-! ## The table -/

/-- The rows of a list. -/
def Table.rowsOf (table : Table) (list : String) : List MailingListRecipient :=
  table.rows.filter (·.mailingList = list)

/-- The addresses of the rows of a list that are among `emails`. -/
def Table.emailsIn (table : Table) (list : String) (emails : List String) : List String :=
  ((table.rowsOf list).filter (·.email ∈ emails)).map (·.email)

/-- A new row. -/
def Table.insert (table : Table) (list : MailingList) (email : String) (enabled : Bool) : Table where
  rows := table.rows ++ [⟨table.next, list.email, email, enabled, list.tenant⟩]
  next := table.next + 1

/-- `bulk_insert` with `ignore_duplicates`: a row whose list and address are there is left out. -/
def Table.bulkInsert (table : Table) (list : MailingList) (emails : List String) : Table :=
  emails.foldl (fun table email =>
    if email ∈ (table.rowsOf list.email).map (·.email) then table else table.insert list email true) table

/-- A row written back. -/
def Table.save (table : Table) (list : MailingList) (row : MailingListRecipient) (enabled : Bool) : Table :=
  { table with rows := table.rows.map fun other =>
      if other.name = row.name then { other with enabled := enabled, tenant := list.tenant } else other }

/-- The table without the rows of these names. -/
def Table.delete (table : Table) (names : List ℕ) : Table :=
  { table with rows := table.rows.filter fun row => row.name ∉ names }

/-- Python's `sorted`. -/
def sorted (texts : List String) : List String := texts.insertionSort (· ≤ ·)

/-- `recipient_emails`. -/
def recipientEmails (table : Table) (list : String) (enabledOnly : Bool) : List String :=
  sorted (((table.rowsOf list).filter fun row => !enabledOnly || row.enabled).map (·.email))

/-! ## A list's operations -/

/-- `PATCH_BATCH`. -/
def patchBatch : ℕ := 1000

/-- `push_recipient_changes`. -/
def pushRecipientChanges (list : MailingList) (added removed : List String) : Calls Patch Unit :=
  if list.stalwartId.isNone then .done ()
  else .send (batches patchBatch
    (Dict.ofList (added.map (·, true) ++ removed.map (·, false))))

variable (platform : Platform)

/-- What `add_recipients` is to add, each address once, where it passes every check. -/
def wantedRecipients (list : MailingList) (owner : String → Option String) (emails : List String) :
    Option (List String) :=
  ((emails.mapM platform.validateEmailAddress).map fun valid =>
      Dict.keys (Dict.ofList (valid.map (·, ())))).filter fun wanted =>
    decide (list.email ∉ wanted) && assertAddressesDeliverable owner list.tenant wanted

/-- `add_recipients`: the table it leaves and the addresses added. -/
def addRecipients (list : MailingList) (owner : String → Option String) (table : Table)
    (emails : List String) (push : Bool) : Calls Patch (Table × List String) :=
  (Calls.ofOption (wantedRecipients platform list owner emails)).bind fun wanted =>
    let existing := table.emailsIn list.email wanted
    let candidates := wanted.filter (· ∉ existing)
    let written := table.bulkInsert list candidates
    -- What this call actually added is what is on the list now and was not before.
    let present := written.emailsIn list.email candidates
    let added := candidates.filter (· ∈ present)
    (if push then pushRecipientChanges list added [] else .done ()).bind fun _ => .done (written, added)

/-- `remove_recipients`: the table it leaves and the addresses removed. -/
def removeRecipients (list : MailingList) (table : Table) (emails : List String) :
    Calls Patch (Table × List String) :=
  (Calls.ofOption (emails.mapM platform.validateEmailAddress)).bind fun wanted =>
    let rows := (table.rowsOf list.email).filter (·.email ∈ wanted)
    (pushRecipientChanges list [] ((rows.filter (·.enabled)).map (·.email))).bind fun _ =>
      .done (table.delete (rows.map (·.name)), rows.map (·.email))

/-- `set_recipients`. -/
def setRecipients (list : MailingList) (owner : String → Option String) (table : Table)
    (emails : List String) : Calls Patch Table :=
  (Calls.ofOption (emails.mapM platform.validateEmailAddress)).bind fun wanted =>
    let current := recipientEmails table list.email false
    (removeRecipients platform list table (sorted (current.filter (· ∉ wanted)).dedup)).bind fun removed =>
      (addRecipients platform list owner removed.1 (sorted (wanted.filter (· ∉ current)).dedup) true).bind
        fun added => .done added.1

/-- A bulk request, as the tenant API sends it. -/
inductive Request
  | addRecipients (emails : List String)
  | removeRecipients (emails : List String)
  | setRecipients (emails : List String)

/-- What a request sends and leaves. -/
def Request.calls (list : MailingList) (owner : String → Option String) (table : Table) :
    Request → Calls Patch Table
  | .addRecipients emails =>
      (Lists.addRecipients platform list owner table emails true).bind fun added => .done added.1
  | .removeRecipients emails =>
      (Lists.removeRecipients platform list table emails).bind fun removed => .done removed.1
  | .setRecipients emails => Lists.setRecipients platform list owner table emails

/-! ## A single row -/

/-- The checks of a row's `validate` that its list and address decide. -/
def isRecipientAllowed (list : MailingList) (owner : String → Option String) (email : String) : Bool :=
  decide (email ≠ list.email) && assertAddressesDeliverable owner list.tenant [email]

/-- The insert of a row. -/
def insertRecipient (list : MailingList) (owner : String → Option String) (table : Table)
    (email : String) (enabled : Bool) : Calls Patch Table :=
  (Calls.ofOption (platform.validateEmailAddress email)).bind fun email =>
    (Calls.check (isRecipientAllowed list owner email &&
      decide (email ∉ (table.rowsOf list.email).map (·.email)))).bind fun _ =>
      (if enabled then pushRecipientChanges list [email] [] else .done ()).bind fun _ =>
        .done (table.insert list email enabled)

/-- The save of a row, whose `email` is set only once. -/
def saveRecipient (list : MailingList) (owner : String → Option String) (table : Table)
    (row : MailingListRecipient) (enabled : Bool) : Calls Patch Table :=
  (Calls.ofOption (platform.validateEmailAddress row.email)).bind fun email =>
    (Calls.check (isRecipientAllowed list owner email)).bind fun _ =>
      (if row.enabled = enabled then .done ()
        else if enabled then pushRecipientChanges list [email] []
        else pushRecipientChanges list [] [email]).bind fun _ =>
        .done (table.save list row enabled)

/-- The delete of a row. -/
def deleteRecipient (list : MailingList) (table : Table) (row : MailingListRecipient) :
    Calls Patch Table :=
  (if row.enabled then pushRecipientChanges list [] [row.email] else .done ()).bind fun _ =>
    .done (table.delete [row.name])

/-! ## Runs -/

/-- The lists and the recipients, the cluster's recipients of each list, and the tenant of each Mail
Domain there is. -/
structure State where
  lists : String → Option MailingList
  table : Table
  recipients : String → Finset String
  owner : String → Option String

/-- No list yet. -/
def State.initial (owner : String → Option String) : State := ⟨fun _ => none, ⟨[], 0⟩, fun _ => ∅, owner⟩

/-- What a run is made of. -/
inductive Action
  | createMailingList (email tenant stalwartId : String)
  | deleteMailingList (list : String)
  | request (list : String) (request : Request)
  | insertRecipient (list email : String) (enabled : Bool)
  | saveRecipient (row : ℕ) (enabled : Bool)
  | deleteRecipient (row : ℕ)
  /-- Mail Domains come and go. -/
  | domains (owner : String → Option String)

/-- A request of a list that ends well, every patch of it accepted. -/
def State.commit (s : State) (list : MailingList) (calls : Calls Patch Table) : Option State :=
  calls.ends.map fun table =>
    { s with
      table := table
      recipients := Function.update s.recipients list.email
        (calls.sent.foldl applyPatch (s.recipients list.email)) }

/-- A row by its name, and its list. -/
def State.row (s : State) (name : ℕ) : Option (MailingListRecipient × MailingList) :=
  (s.table.rows.find? (·.name = name)).bind fun row => (s.lists row.mailingList).map (row, ·)

/-- The insert of a list, with the id the cluster gives its object. -/
def State.createMailingList (s : State) (email tenant stalwartId : String) : Option State :=
  (platform.validateEmailAddress email).bind fun name =>
    if (s.lists name).isSome then none
    else some
      { s with
        lists := Function.update s.lists name (some ⟨name, tenant, some stalwartId⟩)
        recipients := Function.update s.recipients name (recipientEmails s.table name true).toFinset }

/-- The delete of a list: its rows go with it, and its object. -/
def State.deleteMailingList (s : State) (list : MailingList) : State :=
  { s with
    lists := Function.update s.lists list.email none
    table := { s.table with rows := s.table.rows.filter (·.mailingList ≠ list.email) }
    recipients := Function.update s.recipients list.email ∅ }

/-- One operation, taken to its commit; `none` where it raises. -/
def step (s : State) : Action → Option State
  | .createMailingList email tenant stalwartId => s.createMailingList platform email tenant stalwartId
  | .deleteMailingList list => (s.lists list).map s.deleteMailingList
  | .request list request =>
      (s.lists list).bind fun list => s.commit list (request.calls platform list s.owner s.table)
  | .insertRecipient list email enabled =>
      (s.lists list).bind fun list =>
        s.commit list (insertRecipient platform list s.owner s.table email enabled)
  | .saveRecipient row enabled =>
      (s.row row).bind fun found =>
        s.commit found.2 (saveRecipient platform found.2 s.owner s.table found.1 enabled)
  | .deleteRecipient row =>
      (s.row row).bind fun found => s.commit found.2 (deleteRecipient found.2 s.table found.1)
  | .domains owner => some { s with owner := owner }

end SuiteCloud.Mail.Lists
