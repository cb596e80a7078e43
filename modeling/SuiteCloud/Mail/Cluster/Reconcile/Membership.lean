/-
**Membership of groups, refused half-way, and the report.**

`create_group`, `set_members`, `_resolve_members` and `_set_members` of `suite_cloud/api/mail/groups.py`,
with `group_ids` of `sync.py` and the `memberGroupIds` of `MailAccount.on_update`. Membership lives on the
accounts: each account that changes is saved on its own and sends one update, in one transaction. A refusal
rolls the transaction back; what the cluster kept is left to `directory_report`.

* `Records` — Suite Cloud's directory, with the groups of each account.
* `Request.begin` — **a request up to its first account update**: the group, the accounts wanted, and the
  cluster with the group created for it.
* `Attempt.calls` — the account updates it sends, additions before removals, in the order of the names.
* `Shown` — the report names the group left behind and every account left in other groups than recorded.
* `refused_membership_shown_iff` — **a refused change is shown exactly when** all accounts but the last are
  called `admin` or `relay`; for a new group, when it is not called so itself, or nobody is to join it.
* `member_left_behind` — an account that reads a shared mailbox, and a report that names nothing.

The save of an account sends nothing else here: no other field of it changes.
-/

import Mathlib.Data.List.Dedup
import Mathlib.Data.List.Sort
import Mathlib.Data.String.Basic
import SuiteCloud.Library.Calls
import SuiteCloud.Mail.Cluster.Reconcile.Truth
import SuiteCloud.Mail.Tenancy.Addresses

namespace SuiteCloud.Mail.Cluster.Reconcile

open SuiteCloud.Library SuiteCloud.Mail.Tenancy

/-! ## Records -/

/-- The directory, and the groups of each Mail Account. -/
structure Records where
  directory : Directory
  groups : String → List String

/-- The `stalwart_id` of a document. -/
def Records.idOf (records : Records) (doctype : Doctype) (name : String) : Option String :=
  (records.directory.docs.find? fun doc => doc.doctype = doctype ∧ doc.name = name).bind (·.stalwartId)

/-- `frappe.get_all("Mail Account")`. -/
def Records.accounts (records : Records) : List Doc :=
  records.directory.docs.filter (·.doctype = .mailAccount)

/-- `member_emails`. -/
def Records.memberEmails (records : Records) (group : String) : List String :=
  (records.accounts.filter fun doc => group ∈ records.groups doc.name).map (·.name)

/-- The ids of the groups recorded for an account. -/
def Records.memberIds (records : Records) (account : String) : List String :=
  (records.groups account).filterMap (records.idOf .mailGroup)

/-! ## The cluster -/

/-- An update of an account's `memberGroupIds`. -/
structure Update where
  id : String
  memberGroupIds : List String

def setGroups (live : Principal) (update : Update) : Principal :=
  if live.id = update.id then { live with memberGroupIds := update.memberGroupIds } else live

theorem setGroups_toLive (live : Principal) (update : Update) : (setGroups live update).toLive = live.toLive := by
  unfold setGroups
  split
  · rfl
  · rfl

theorem once_setGroups (content : Content) (update : Update) :
    ((content.principals.map (setGroups · update)).filterMap fun live =>
      addressOf (domainNames content.domains) live.toLive).Nodup := by
  rw [List.filterMap_map]
  have same : ((fun live : Principal => addressOf (domainNames content.domains) live.toLive) ∘
      (setGroups · update)) = fun live => addressOf (domainNames content.domains) live.toLive := by
    funext live
    rw [Function.comp_apply, setGroups_toLive]
  rw [same]
  exact content.principal_once

/-- **What an accepted update does.** -/
def accept (content : Content) (update : Update) : Content :=
  { content with
    principals := content.principals.map (setGroups · update)
    principal_once := once_setGroups content update }

/-- The cluster takes an object whose address and id are free. -/
def Content.IsFree (content : Content) (live : Principal) : Prop :=
  live.id ∉ content.principals.map (·.id) ∧
    ∀ other ∈ content.principals, content.address other.toLive ≠ none →
      content.address other.toLive ≠ content.address live.toLive

instance (content : Content) (live : Principal) : Decidable (content.IsFree live) :=
  inferInstanceAs (Decidable (_ ∧ _))

theorem once_create {content : Content} {live : Principal} (free : content.IsFree live) :
    ((content.principals ++ [live]).filterMap fun live =>
      addressOf (domainNames content.domains) live.toLive).Nodup := by
  rw [List.filterMap_append, List.nodup_append]
  refine ⟨content.principal_once, ?_, ?_⟩
  · cases address : addressOf (domainNames content.domains) live.toLive with
    | none => simp [address]
    | some name => simp [address]
  · rintro name member other there rfl
    obtain ⟨holder, inside, held⟩ := List.mem_filterMap.mp member
    obtain ⟨new, only, taken⟩ := List.mem_filterMap.mp there
    obtain rfl := List.mem_singleton.mp only
    refine free.2 holder inside ?_ (held.trans taken.symm)
    exact fun none => Option.some_ne_none _ (held.symm.trans none)

/-- The create of an account or group. -/
def Content.create (content : Content) (live : Principal) : Option Content :=
  if free : content.IsFree live then
    some { content with principals := content.principals ++ [live], principal_once := once_create free }
  else none

/-! ## The requests -/

/-- The fields of a Mail Group in a request; `passes` is every check that asks for neither the address
nor the members. -/
structure NewGroup where
  email : String
  description : Option String
  aliases : List LiveAlias
  quotas : List (String × Int)
  disableReceiving : Bool
  passes : Bool

/-- `MailGroup.stalwart_payload`, as the cluster has it. -/
def NewGroup.live (form : NewGroup) (id email domainId : String) : Principal where
  id := id
  name := some (localPart email)
  domainId := some domainId
  emailAddress := some email
  description := truthy form.description
  aliases := form.aliases
  kind := .group
  locale := none
  timeZone := none
  memberGroupIds := []
  disabledPermissions := if form.disableReceiving then [receivePermission] else []
  quotas := form.quotas
  customRoles := none

inductive Request
  /-- With the id the cluster gives the group. -/
  | createGroup (form : NewGroup) (id : String) (members : List String)
  | setMembers (email : String) (members : List String)

/-- **What a request is about to do** before its first account update. -/
structure Attempt where
  group : String
  /-- The id of the group, where it was created for the request. -/
  created : Option String
  wanted : List String
  content : Content

section Requests

variable (platform : Platform) (tenant : String) (records : Records)

/-- `_resolve_members`. -/
def resolveMembers (members : List String) : Option (List String) :=
  (asList members membershipCap).bind fun names =>
    let wanted := (names.map platform.normalizeName).dedup
    if wanted.all fun name => records.accounts.any fun doc => doc.name = name ∧ doc.tenant = tenant then
      some wanted
    else none

/-- The insert of a group: its address and the id of its domain, where the checks pass. -/
def insertGroup (form : NewGroup) : Option (String × String) :=
  (platform.validateEmailAddress form.email).bind fun email =>
    (records.directory.docs.find? fun doc => doc.doctype = .mailDomain ∧
        doc.name = platform.normalizeDomain (domainPart email)).bind fun domain =>
      domain.stalwartId.bind fun domainId =>
        if domain.tenant = tenant ∧ form.passes = true ∧
            ∀ doc ∈ records.directory.docs, doc.doctype ≠ .mailDomain → doc.name ≠ email then
          some (email, domainId)
        else none

/-- `create_group` and `set_members`, up to the first account update. -/
def Request.begin (content : Content) : Request → Option Attempt
  | .createGroup form id members =>
      (resolveMembers platform tenant records members).bind fun wanted =>
        (insertGroup platform tenant records form).bind fun found =>
          (content.create (form.live id found.1 found.2)).map fun content => ⟨found.1, some id, wanted, content⟩
  | .setMembers email members =>
      (records.directory.docs.find? fun doc => doc.doctype = .mailGroup ∧
          doc.name = platform.normalizeName email ∧ doc.tenant = tenant).bind fun group =>
        (resolveMembers platform tenant records members).map fun wanted => ⟨group.name, none, wanted, content⟩

end Requests

/-- `sorted(first - second)`. -/
def sortedDifference (first second : List String) : List String :=
  ((first.filter (· ∉ second)).dedup).insertionSort (· ≤ ·)

/-- The accounts saved, in order, with the groups each then has. -/
def Attempt.changes (records : Records) (attempt : Attempt) : List (String × List String) :=
  (sortedDifference attempt.wanted (records.memberEmails attempt.group)).map (fun account =>
      (account, records.groups account ++ [attempt.group])) ++
    (sortedDifference (records.memberEmails attempt.group) attempt.wanted).map (fun account =>
      (account, (records.groups account).filter (· ≠ attempt.group)))

/-- The `stalwart_id` of a group, in the transaction. -/
def Attempt.groupId (records : Records) (attempt : Attempt) (name : String) : Option String :=
  match attempt.created with
  | none => records.idOf .mailGroup name
  | some id => if name = attempt.group then some id else records.idOf .mailGroup name

/-- The save of an account: `group_ids` raises for a group that is not on the mail server. -/
def Attempt.save (records : Records) (attempt : Attempt) (change : String × List String) : Calls Update Unit :=
  match records.idOf .mailAccount change.1 with
  | none => .done ()
  | some id =>
      (Calls.ofOption (change.2.mapM (attempt.groupId records))).bind fun memberGroupIds =>
        .send [⟨id, memberGroupIds⟩]

/-- **`_set_members`**: the updates it sends. -/
def Attempt.calls (records : Records) (attempt : Attempt) : Calls Update Unit :=
  (attempt.changes records).foldr (fun change rest => (attempt.save records change).bind fun _ => rest)
    (.done ())

/-- The cluster once so many of them were accepted. -/
def Attempt.left (records : Records) (attempt : Attempt) (accepted : ℕ) : Content :=
  (((attempt.calls records).sent).take accepted).foldl accept attempt.content

/-! ## What the report shows -/

/-- The report has an entry of the account or group. -/
def Report.Names (report : Report) (name : String) : Prop :=
  (.account, name) ∈ report.missingOnStalwart ∨ (.account, name) ∈ report.orphansOnStalwart ∨
    ∃ ours live, ⟨.account, name, ours, live⟩ ∈ report.idMismatch

/-- **Every difference is named**, once the database is rolled back: the group created, and each account
whose `memberGroupIds` are not the recorded ones, but for the id of that group. -/
structure Shown (records : Records) (cluster : StalwartCluster) (attempt : Attempt) (left : Content) :
    Prop where
  group : attempt.created ≠ none →
    (directoryReport records.directory cluster left).Names attempt.group
  accounts : ∀ doc ∈ records.accounts, doc.cluster = cluster.name → ∀ live ∈ left.principals,
    doc.stalwartId = some live.id →
      (∃ id, some id ≠ attempt.created ∧ ¬ (id ∈ live.memberGroupIds ↔ id ∈ records.memberIds doc.name)) →
        (directoryReport records.directory cluster left).Names doc.name

/-- **The directory is mirrored by the cluster**: every account and group of it is there under its address
and id, each account in the groups recorded for it, which are groups of the same cluster; and the tenant's
documents are on this cluster. -/
structure Mirrored (tenant : String) (records : Records) (cluster : StalwartCluster) (content : Content) :
    Prop where
  ids : (content.principals.map (·.id)).Nodup
  home : ∀ doc ∈ records.directory.docs, doc.tenant = tenant → doc.cluster = cluster.name
  held : ∀ doc ∈ records.directory.docs, doc.cluster = cluster.name →
    doc.doctype = .mailAccount ∨ doc.doctype = .mailGroup → ∃ live ∈ content.principals,
      doc.stalwartId = some live.id ∧ live.emailAddress = some doc.name ∧ doc.name ≠ "" ∧
        live.name = some (localPart doc.name)
  members : ∀ doc ∈ records.accounts, doc.cluster = cluster.name → ∀ live ∈ content.principals,
    doc.stalwartId = some live.id → ∀ id, id ∈ live.memberGroupIds ↔ id ∈ records.memberIds doc.name
  groups : ∀ doc ∈ records.accounts, ∀ group ∈ records.groups doc.name,
    ∃ other ∈ records.directory.docs, other.doctype = .mailGroup ∧ other.name = group ∧
      other.cluster = doc.cluster

/-! ## The report, account by account -/

section Report

variable {records : Records} {cluster : StalwartCluster} {content : Content} {live : Principal} {doc : Doc}

theorem eq_of_address {other : Principal} {name : String} (here : live ∈ content.principals)
    (there : other ∈ content.principals) (held : content.address live.toLive = some name)
    (same : content.address other.toLive = some name) : live = other :=
  eq_of_filterMap_nodup content.principal_once here there held same

theorem truthy_of_ne {text : Option String} {name : String} (given : text = some name) (there : name ≠ "") :
    truthy text = some name := by
  rw [given]
  exact Option.filter_eq_some_iff.mpr ⟨rfl, decide_eq_true there⟩

theorem mem_liveAccounts {name : String} (here : live ∈ content.principals)
    (address : live.emailAddress = some name) (there : name ≠ "") :
    name ∈ (liveAccounts content).keys ↔ inInfraAccounts live.name = false := by
  have given := truthy_of_ne address there
  rw [(holds_accounts content).mem_keys]
  constructor
  · rintro ⟨other, inside, kept, same⟩
    obtain rfl := eq_of_address inside here same (address_of_truthy content given)
    rw [Bool.eq_false_iff]
    intro infra
    rw [keptAccount, if_pos infra] at kept
    cases kept
  · intro customer
    refine ⟨live, here, ?_, address_of_truthy content given⟩
    rw [keptAccount, customer, if_neg Bool.false_ne_true, given]
    rfl

/-- **A recorded account or group that the cluster has** under its id is named exactly when it is called
`admin` or `relay`. -/
theorem names_recorded (there : doc ∈ records.directory.docs) (own : doc.cluster = cluster.name)
    (kind : doc.doctype = .mailAccount ∨ doc.doctype = .mailGroup) (here : live ∈ content.principals)
    (id : doc.stalwartId = some live.id) (address : live.emailAddress = some doc.name)
    (named : doc.name ≠ "") :
    (directoryReport records.directory cluster content).Names doc.name ↔
      inInfraAccounts live.name = true := by
  have compared := compared_accounts records.directory cluster content
  rw [oursAccounts_eq] at compared
  have recorded : (doc.name, doc.stalwartId) ∈ records.directory.rows .mailAccount cluster.name ++
      records.directory.rows .mailGroup cluster.name := by
    rw [List.mem_append, Directory.rows, Directory.rows]
    rcases kind with account | group
    · exact Or.inl (List.mem_map_of_mem (List.mem_filter.mpr ⟨there, decide_eq_true ⟨account, own⟩⟩))
    · exact Or.inr (List.mem_map_of_mem (List.mem_filter.mpr ⟨there, decide_eq_true ⟨group, own⟩⟩))
  have known := List.mem_map_of_mem (f := Prod.fst) recorded
  rw [Report.Names, compared.missing, compared.orphan]
  constructor
  · rintro (⟨-, absent⟩ | ⟨-, unknown, -⟩ | ⟨ours, liveId, mismatch⟩)
    · rw [mem_liveAccounts here address named, Bool.not_eq_false] at absent
      exact absent
    · exact absurd known unknown
    · obtain ⟨entry, found, different⟩ := (compared.mismatch _ _ _).mp mismatch
      by_contra customer
      have ours_eq : ours = doc.stalwartId := by
        have equal := List.inj_on_of_nodup_map (nodup_accounts cluster.name) entry recorded rfl
        exact congrArg Prod.snd equal
      have kept := (Dict.get_eq_some (holds_accounts content).distinct).mp found
      obtain ⟨other, inside, -, same, otherId⟩ := ((holds_accounts content).entry _ _).mp kept
      obtain rfl := eq_of_address inside here same
        (address_of_truthy content (truthy_of_ne address named))
      exact different (by rw [ours_eq, id, otherId])
  · intro infra
    refine Or.inl ⟨known, ?_⟩
    rw [mem_liveAccounts here address named, infra]
    exact Bool.noConfusion

theorem names_unrecorded {name : String} (here : live ∈ content.principals)
    (address : live.emailAddress = some name) (named : name ≠ "")
    (unknown : ∀ doc ∈ records.directory.docs, doc.doctype ≠ .mailDomain → doc.name ≠ name) :
    (directoryReport records.directory cluster content).Names name ↔ inInfraAccounts live.name = false := by
  have compared := compared_accounts records.directory cluster content
  rw [oursAccounts_eq] at compared
  have unrecorded : name ∉ (records.directory.rows .mailAccount cluster.name ++
      records.directory.rows .mailGroup cluster.name).map Prod.fst := by
    rw [List.map_append, List.mem_append, rows_map, rows_map, List.mem_map, List.mem_map]
    rintro (⟨doc, inside, same⟩ | ⟨doc, inside, same⟩)
    · obtain ⟨there, picked⟩ := List.mem_filter.mp inside
      refine unknown doc there ?_ same
      rw [(of_decide_eq_true picked).1]
      decide
    · obtain ⟨there, picked⟩ := List.mem_filter.mp inside
      refine unknown doc there ?_ same
      rw [(of_decide_eq_true picked).1]
      decide
  rw [Report.Names, compared.missing, compared.orphan, ← mem_liveAccounts here address named]
  constructor
  · rintro (⟨recorded, -⟩ | ⟨live, -⟩ | ⟨ours, liveId, mismatch⟩)
    · exact absurd recorded unrecorded
    · exact live
    · have entry := ((compared.mismatch _ _ _).mp mismatch).1
      exact absurd (List.mem_map_of_mem (f := Prod.fst) entry) unrecorded
  · exact fun live => Or.inr (Or.inl ⟨live, unrecorded, List.not_mem_nil⟩)

end Report

/-! ## The updates -/

section Updates

variable {updates : List Update} {content : Content} {live : Principal}

theorem foldl_setGroups_toLive (live : Principal) (updates : List Update) :
    (updates.foldl setGroups live).toLive = live.toLive := by
  induction updates generalizing live with
  | nil => rfl
  | cons update rest ih => exact (ih _).trans (setGroups_toLive live update)

theorem foldl_setGroups_cases (live : Principal) (updates : List Update) :
    ((∀ update ∈ updates, update.id ≠ live.id) ∧
      (updates.foldl setGroups live).memberGroupIds = live.memberGroupIds) ∨
    ∃ update ∈ updates, update.id = live.id ∧
      (updates.foldl setGroups live).memberGroupIds = update.memberGroupIds := by
  induction updates generalizing live with
  | nil => exact Or.inl ⟨fun _ => nofun, rfl⟩
  | cons update rest ih =>
    have same : (setGroups live update).id = live.id :=
      congrArg (fun live : Live => live.id) (setGroups_toLive live update)
    rcases ih (setGroups live update) with ⟨none, kept⟩ | ⟨later, member, own, groups⟩
    · rw [same] at none
      by_cases own : live.id = update.id
      · refine Or.inr ⟨update, List.mem_cons_self, own.symm, kept.trans ?_⟩
        rw [setGroups, if_pos own]
      · refine Or.inl ⟨List.forall_mem_cons.mpr ⟨fun other => own other.symm, none⟩, kept.trans ?_⟩
        rw [setGroups, if_neg own]
    · exact Or.inr ⟨later, List.mem_cons_of_mem _ member, own.trans same, groups⟩

theorem principals_foldl_accept (content : Content) (updates : List Update) :
    (updates.foldl accept content).principals =
      content.principals.map fun live => updates.foldl setGroups live := by
  induction updates generalizing content with
  | nil => exact (List.map_id _).symm
  | cons update rest ih =>
    rw [List.foldl_cons, ih, accept, List.map_map]
    rfl

theorem mem_foldl_accept :
    live ∈ (updates.foldl accept content).principals ↔
      ∃ old ∈ content.principals, updates.foldl setGroups old = live := by
  rw [principals_foldl_accept, List.mem_map]

end Updates

/-! ## A request begun -/

/-- **What is known once a request has begun.** -/
structure Ready (tenant : String) (records : Records) (cluster : StalwartCluster) (attempt : Attempt) :
    Prop where
  mirrored : Mirrored tenant records cluster attempt.content
  wanted : ∀ account ∈ attempt.wanted, ∃ doc ∈ records.accounts, doc.name = account ∧
    doc.cluster = cluster.name
  recorded : attempt.created = none → ∃ doc ∈ records.directory.docs, doc.doctype = .mailGroup ∧
    doc.name = attempt.group ∧ doc.cluster = cluster.name
  created : ∀ id, attempt.created = some id →
    (∀ doc ∈ records.directory.docs, doc.doctype ≠ .mailDomain → doc.name ≠ attempt.group) ∧
    (∀ doc ∈ records.directory.docs, doc.cluster = cluster.name → doc.doctype = .mailGroup →
      doc.stalwartId ≠ some id) ∧
    ∃ live ∈ attempt.content.principals, live.emailAddress = some attempt.group ∧ attempt.group ≠ "" ∧
      live.name = some (localPart attempt.group)

section Beginning

variable {platform : Platform} {tenant : String} {records : Records} {cluster : StalwartCluster}
variable {content after : Content} {live : Principal} {attempt : Attempt}

theorem mem_accounts {doc : Doc} :
    doc ∈ records.accounts ↔ doc ∈ records.directory.docs ∧ doc.doctype = .mailAccount := by
  rw [Records.accounts, List.mem_filter, decide_eq_true_iff]

theorem resolved (mirrored : Mirrored tenant records cluster content) {members wanted : List String}
    (found : resolveMembers platform tenant records members = some wanted) :
    ∀ account ∈ wanted, ∃ doc ∈ records.accounts, doc.name = account ∧ doc.cluster = cluster.name := by
  obtain ⟨names, -, found⟩ := Option.bind_eq_some_iff.mp found
  simp only at found
  split at found
  · rename_i known
    obtain rfl := Option.some.inj found
    intro account member
    obtain ⟨doc, there, same⟩ := List.any_eq_true.mp (List.all_eq_true.mp known account member)
    obtain ⟨named, own⟩ := of_decide_eq_true same
    exact ⟨doc, there, named, mirrored.home doc (mem_accounts.mp there).1 own⟩
  · cases found

theorem create_eq_some (created : content.create live = some after) :
    content.IsFree live ∧ after.principals = content.principals ++ [live] := by
  unfold Content.create at created
  split at created
  · rename_i free
    obtain rfl := Option.some.inj created
    exact ⟨free, rfl⟩
  · cases created

/-- A group more on the cluster leaves the directory mirrored. -/
theorem Mirrored.create (mirrored : Mirrored tenant records cluster content)
    (created : content.create live = some after) : Mirrored tenant records cluster after := by
  obtain ⟨free, principals⟩ := create_eq_some created
  refine ⟨?_, mirrored.home, ?_, ?_, mirrored.groups⟩
  · rw [principals, List.map_append, List.map_singleton, List.nodup_append]
    refine ⟨mirrored.ids, List.nodup_singleton _, ?_⟩
    rintro id member other only rfl
    exact free.1 (List.mem_singleton.mp only ▸ member)
  · intro doc there own kind
    obtain ⟨held, inside, facts⟩ := mirrored.held doc there own kind
    exact ⟨held, principals ▸ List.mem_append_left _ inside, facts⟩
  · intro doc there own other inside id
    rw [principals, List.mem_append, List.mem_singleton] at inside
    rcases inside with before | rfl
    · exact mirrored.members doc there own other before id
    · -- The id of a document is that of an object the cluster had.
      obtain ⟨docs, kind⟩ := mem_accounts.mp there
      obtain ⟨held, before, same, -⟩ := mirrored.held doc docs own (Or.inl kind)
      have taken : held.id = other.id := Option.some.inj (same.symm.trans id)
      exact absurd (taken ▸ List.mem_map_of_mem before) free.1

theorem ready_of_begin (mirrored : Mirrored tenant records cluster content) {request : Request}
    (begun : request.begin platform tenant records content = some attempt) :
    Ready tenant records cluster attempt := by
  cases request with
  | createGroup form id members =>
    obtain ⟨wanted, found, rest⟩ := Option.bind_eq_some_iff.mp begun
    obtain ⟨⟨email, domainId⟩, inserted, rest⟩ := Option.bind_eq_some_iff.mp rest
    obtain ⟨after, created, rfl⟩ := Option.map_eq_some_iff.mp rest
    obtain ⟨address, form_eq, rest⟩ := Option.bind_eq_some_iff.mp inserted
    obtain ⟨domain, -, rest⟩ := Option.bind_eq_some_iff.mp rest
    obtain ⟨ofDomain, -, rest⟩ := Option.bind_eq_some_iff.mp rest
    obtain ⟨free, principals⟩ := create_eq_some created
    split at rest
    · rename_i checks
      obtain ⟨rfl, rfl⟩ := Prod.mk.inj (Option.some.inj rest)
      refine ⟨mirrored.create created, resolved mirrored found, nofun, ?_⟩
      intro given same
      obtain rfl := Option.some.inj same
      refine ⟨checks.2.2, ?_, _, principals ▸ List.mem_append_right _ List.mem_cons_self, rfl, ?_, rfl⟩
      · intro doc there own kind same
        obtain ⟨held, inside, heldId, -⟩ := mirrored.held doc there own (Or.inr kind)
        refine free.1 (List.mem_map.mpr ⟨held, inside, ?_⟩)
        exact Option.some.inj (heldId.symm.trans same)
      · rintro rfl
        exact absurd (validateEmailAddress_at form_eq) List.not_mem_nil
    · cases rest
  | setMembers email members =>
    obtain ⟨group, first, rest⟩ := Option.bind_eq_some_iff.mp begun
    obtain ⟨wanted, found, rfl⟩ := Option.map_eq_some_iff.mp rest
    have there := List.mem_of_find?_eq_some first
    have picked := List.find?_some first
    rw [decide_eq_true_iff] at picked
    obtain ⟨kind, -, own⟩ := picked
    refine ⟨mirrored, resolved mirrored found, fun _ => ⟨group, there, kind, rfl, ?_⟩, nofun⟩
    exact mirrored.home group there own

end Beginning

/-! ## One account saved -/

section Saving

variable {tenant : String} {records : Records} {cluster : StalwartCluster} {attempt : Attempt}
variable {doc : Doc} {group id : String}

theorem idOf_eq (there : doc ∈ records.directory.docs) (address : doc.doctype ≠ .mailDomain) :
    records.idOf doc.doctype doc.name = doc.stalwartId := by
  unfold Records.idOf
  cases first : records.directory.docs.find? fun other =>
      other.doctype = doc.doctype ∧ other.name = doc.name with
  | none =>
    have picked := List.find?_eq_none.mp first doc there
    exact absurd (decide_eq_true ⟨rfl, rfl⟩) picked
  | some other =>
    have inside := List.mem_of_find?_eq_some first
    have picked := List.find?_some first
    rw [decide_eq_true_iff] at picked
    have equal := List.inj_on_of_nodup_map records.directory.address_once
      (List.mem_filter.mpr ⟨inside, decide_eq_true (picked.1 ▸ address)⟩)
      (List.mem_filter.mpr ⟨there, decide_eq_true address⟩) picked.2
    rw [equal]
    rfl

theorem eq_of_id {content : Content} (mirrored : Mirrored tenant records cluster content) {other : Doc}
    (there : doc ∈ records.directory.docs) (own : doc.cluster = cluster.name)
    (kind : doc.doctype = .mailAccount ∨ doc.doctype = .mailGroup)
    (inside : other ∈ records.directory.docs) (own' : other.cluster = cluster.name)
    (kind' : other.doctype = .mailAccount ∨ other.doctype = .mailGroup)
    (same : doc.stalwartId = other.stalwartId) : doc.name = other.name := by
  obtain ⟨live, here, liveId, address, -⟩ := mirrored.held doc there own kind
  obtain ⟨live', here', liveId', address', -⟩ := mirrored.held other inside own' kind'
  have ids : live.id = live'.id := by
    rw [liveId, liveId'] at same
    exact Option.some.inj same
  obtain rfl := List.inj_on_of_nodup_map mirrored.ids here here' ids
  exact Option.some.inj (address.symm.trans address')

theorem Ready.recordedGroup (ready : Ready tenant records cluster attempt) (there : doc ∈ records.accounts)
    (own : doc.cluster = cluster.name) (member : group ∈ records.groups doc.name) :
    ∃ other ∈ records.directory.docs, other.doctype = .mailGroup ∧ other.name = group ∧
      other.cluster = cluster.name ∧ ∃ id, other.stalwartId = some id ∧
        records.idOf .mailGroup group = some id ∧ attempt.groupId records group = some id := by
  obtain ⟨other, inside, kind, named, same⟩ := ready.mirrored.groups doc there group member
  have otherOwn : other.cluster = cluster.name := same.trans own
  obtain ⟨live, -, id, -⟩ := ready.mirrored.held other inside otherOwn (Or.inr kind)
  have address : other.doctype ≠ .mailDomain := by
    rw [kind]
    decide
  have found : records.idOf .mailGroup group = some live.id := by
    rw [← id, ← idOf_eq inside address, kind, named]
  refine ⟨other, inside, kind, named, otherOwn, live.id, id, found, ?_⟩
  unfold Attempt.groupId
  cases created : attempt.created with
  | none => exact found
  | some new =>
    have different : group ≠ attempt.group :=
      named ▸ (ready.created new created).1 other inside address
    exact (if_neg different).trans found

theorem Ready.ownGroup (ready : Ready tenant records cluster attempt) :
    ∃ id, attempt.groupId records attempt.group = some id ∧
      (attempt.created = none → records.idOf .mailGroup attempt.group = some id) ∧
      (∀ new, attempt.created = some new → new = id) ∧
      ∀ other ∈ records.directory.docs, other.doctype = .mailGroup → other.cluster = cluster.name →
        other.name ≠ attempt.group → other.stalwartId ≠ some id := by
  cases created : attempt.created with
  | some new =>
    refine ⟨new, ?_, nofun, fun _ same => (Option.some.inj same).symm, ?_⟩
    · unfold Attempt.groupId
      rw [created]
      exact if_pos rfl
    · exact fun other inside kind own _ => (ready.created new created).2.1 other inside own kind
  | none =>
    obtain ⟨doc, there, kind, named, own⟩ := ready.recorded created
    obtain ⟨live, -, id, -⟩ := ready.mirrored.held doc there own (Or.inr kind)
    have address : doc.doctype ≠ .mailDomain := by
      rw [kind]
      decide
    have found : records.idOf .mailGroup attempt.group = some live.id := by
      rw [← id, ← idOf_eq there address, kind, named]
    refine ⟨live.id, ?_, fun _ => found, nofun, ?_⟩
    · unfold Attempt.groupId
      rw [created]
      exact found
    · intro other inside kind' own' different same
      have equal := eq_of_id ready.mirrored there own (Or.inr kind) inside own' (Or.inr kind')
        (id.trans same.symm)
      exact different (equal.symm.trans named)

/-- **One account saved**: the update it sends leaves it in other groups than recorded; where the group
was created for the request, in that one more only. -/
structure Sends (records : Records) (cluster : StalwartCluster) (attempt : Attempt)
    (change : String × List String) (update : Update) : Prop where
  saves : attempt.save records change = .send [update]
  account : ∃ doc ∈ records.accounts, doc.cluster = cluster.name ∧ doc.name = change.1 ∧
    doc.stalwartId = some update.id
  differs : ∃ id, ¬ (id ∈ update.memberGroupIds ↔ id ∈ records.memberIds change.1)
  only : attempt.created ≠ none → ∀ id, some id ≠ attempt.created →
    (id ∈ update.memberGroupIds ↔ id ∈ records.memberIds change.1)

theorem Ready.save_eq (ready : Ready tenant records cluster attempt) (there : doc ∈ records.accounts)
    (own : doc.cluster = cluster.name) {groups ids : List String}
    (turned : groups.mapM (attempt.groupId records) = some ids) :
    ∃ update : Update, attempt.save records (doc.name, groups) = .send [update] ∧
      update.memberGroupIds = ids ∧ doc.stalwartId = some update.id := by
  obtain ⟨inside, kind⟩ := mem_accounts.mp there
  obtain ⟨live, -, id, -⟩ := ready.mirrored.held doc inside own (Or.inl kind)
  have address : doc.doctype ≠ .mailDomain := by
    rw [kind]
    decide
  have found : records.idOf .mailAccount doc.name = some live.id := by
    rw [← id, ← idOf_eq inside address, kind]
  refine ⟨⟨live.id, ids⟩, ?_, rfl, id⟩
  unfold Attempt.save
  rw [found, turned]
  rfl

theorem Ready.mem_memberIds (ready : Ready tenant records cluster attempt) (there : doc ∈ records.accounts)
    (own : doc.cluster = cluster.name) :
    id ∈ records.memberIds doc.name ↔
      ∃ group ∈ records.groups doc.name, attempt.groupId records group = some id := by
  rw [Records.memberIds, List.mem_filterMap]
  refine exists_congr fun group => and_congr_right fun member => ?_
  obtain ⟨-, -, -, -, -, held, -, found, same⟩ := ready.recordedGroup there own member
  rw [found, same]

theorem Ready.not_mem_memberIds (ready : Ready tenant records cluster attempt)
    (there : doc ∈ records.accounts) (own : doc.cluster = cluster.name)
    (apart : ∀ other ∈ records.directory.docs, other.doctype = .mailGroup → other.cluster = cluster.name →
      other.name ≠ attempt.group → other.stalwartId ≠ some id) :
    ¬ ∃ group ∈ records.groups doc.name, group ≠ attempt.group ∧
      attempt.groupId records group = some id := by
  rintro ⟨group, member, different, same⟩
  obtain ⟨other, inside, kind, named, otherOwn, held, otherId, -, found⟩ :=
    ready.recordedGroup there own member
  refine apart other inside kind otherOwn (named ▸ different) ?_
  rw [otherId, ← found, same]

theorem Ready.joins (ready : Ready tenant records cluster attempt) (there : doc ∈ records.accounts)
    (own : doc.cluster = cluster.name) (apart : attempt.group ∉ records.groups doc.name) :
    ∃ update, Sends records cluster attempt (doc.name, records.groups doc.name ++ [attempt.group]) update := by
  obtain ⟨id, found, -, new, distinct⟩ := ready.ownGroup
  have turning : ∀ group ∈ records.groups doc.name ++ [attempt.group],
      ∃ id, attempt.groupId records group = some id := by
    intro group member
    rcases List.mem_append.mp member with before | only
    · obtain ⟨-, -, -, -, -, held, -, -, same⟩ := ready.recordedGroup there own before
      exact ⟨held, same⟩
    · exact ⟨id, List.mem_singleton.mp only ▸ found⟩
  obtain ⟨ids, turned⟩ := exists_mapM turning
  obtain ⟨update, saves, groups, docId⟩ := ready.save_eq there own turned
  have after : ∀ other, other ∈ update.memberGroupIds ↔
      other ∈ records.memberIds doc.name ∨ other = id := by
    intro other
    rw [groups, mem_of_mapM turned, ready.mem_memberIds there own]
    simp only [List.mem_append, List.mem_singleton, or_and_right, exists_or, exists_eq_left, found,
      Option.some.injEq]
    exact or_congr_right eq_comm
  have fresh : id ∉ records.memberIds doc.name := by
    rw [ready.mem_memberIds there own]
    rintro ⟨group, member, same⟩
    refine ready.not_mem_memberIds there own distinct ⟨group, member, ?_, same⟩
    rintro rfl
    exact apart member
  refine ⟨update, saves, ⟨doc, there, own, rfl, docId⟩, ⟨id, fun same => ?_⟩, ?_⟩
  · exact fresh (same.mp ((after id).mpr (Or.inr rfl)))
  · intro created other different
    obtain ⟨given, isNew⟩ := Option.ne_none_iff_exists'.mp created
    rw [after]
    refine or_iff_left ?_
    rintro rfl
    exact different (isNew.trans (congrArg some (new given isNew))).symm

/-- **An account that leaves.** -/
theorem Ready.leaves (ready : Ready tenant records cluster attempt) (there : doc ∈ records.accounts)
    (own : doc.cluster = cluster.name) (member : attempt.group ∈ records.groups doc.name) :
    ∃ update, Sends records cluster attempt
      (doc.name, (records.groups doc.name).filter (· ≠ attempt.group)) update := by
  obtain ⟨id, found, -, -, distinct⟩ := ready.ownGroup
  have turning : ∀ group ∈ (records.groups doc.name).filter (· ≠ attempt.group),
      ∃ id, attempt.groupId records group = some id := by
    intro group kept
    obtain ⟨-, -, -, -, -, held, -, -, same⟩ :=
      ready.recordedGroup there own (List.mem_of_mem_filter kept)
    exact ⟨held, same⟩
  obtain ⟨ids, turned⟩ := exists_mapM turning
  obtain ⟨update, saves, groups, docId⟩ := ready.save_eq there own turned
  have gone : id ∉ update.memberGroupIds := by
    rw [groups, mem_of_mapM turned]
    rintro ⟨group, kept, same⟩
    obtain ⟨inside, different⟩ := List.mem_filter.mp kept
    exact ready.not_mem_memberIds there own distinct
      ⟨group, inside, of_decide_eq_true different, same⟩
  have before : id ∈ records.memberIds doc.name :=
    (ready.mem_memberIds there own).mpr ⟨attempt.group, member, found⟩
  refine ⟨update, saves, ⟨doc, there, own, rfl, docId⟩, ⟨id, fun same => gone (same.mpr before)⟩, ?_⟩
  -- A group created for the request is recorded for no account.
  intro created
  obtain ⟨new, isNew⟩ := Option.ne_none_iff_exists'.mp created
  obtain ⟨other, inside, kind, named, -⟩ := ready.recordedGroup there own member
  refine absurd named ((ready.created new isNew).1 other inside ?_)
  rw [kind]
  decide

theorem mem_sortedDifference {first second : List String} {name : String} :
    name ∈ sortedDifference first second ↔ name ∈ first ∧ name ∉ second := by
  rw [sortedDifference, List.mem_insertionSort, List.mem_dedup, List.mem_filter, decide_eq_true_iff]

theorem mem_memberEmails {name : String} :
    name ∈ records.memberEmails group ↔
      ∃ doc ∈ records.accounts, group ∈ records.groups doc.name ∧ doc.name = name := by
  rw [Records.memberEmails, List.mem_map]
  simp only [List.mem_filter, decide_eq_true_iff, and_assoc]

/-- **Every account to be saved sends one update.** -/
theorem Ready.sends (ready : Ready tenant records cluster attempt) {change : String × List String}
    (member : change ∈ attempt.changes records) :
    ∃ update, Sends records cluster attempt change update := by
  rcases List.mem_append.mp member with joining | leaving
  · obtain ⟨account, wanted, rfl⟩ := List.mem_map.mp joining
    obtain ⟨wanted, outside⟩ := mem_sortedDifference.mp wanted
    obtain ⟨doc, there, rfl, own⟩ := ready.wanted account wanted
    exact ready.joins there own fun inside => outside (mem_memberEmails.mpr ⟨doc, there, inside, rfl⟩)
  · obtain ⟨account, current, rfl⟩ := List.mem_map.mp leaving
    obtain ⟨current, -⟩ := mem_sortedDifference.mp current
    obtain ⟨doc, there, inside, rfl⟩ := mem_memberEmails.mp current
    -- The group of an account is on the account's cluster.
    obtain ⟨other, here, kind, named, same⟩ := ready.mirrored.groups doc there _ inside
    have address : other.doctype ≠ .mailDomain := by
      rw [kind]
      decide
    cases created : attempt.created with
    | some new => exact absurd named ((ready.created new created).1 other here address)
    | none =>
      obtain ⟨group, docs, groupKind, groupName, own⟩ := ready.recorded created
      have equal := List.inj_on_of_nodup_map records.directory.address_once
        (List.mem_filter.mpr ⟨here, decide_eq_true address⟩)
        (List.mem_filter.mpr ⟨docs, decide_eq_true (by rw [groupKind]; decide)⟩)
        (named.trans groupName.symm)
      exact ready.leaves there (same.symm.trans (equal ▸ own)) inside

/-- **The updates of a request**, one for each account it saves. -/
theorem Ready.sent (ready : Ready tenant records cluster attempt) :
    List.Forall₂ (Sends records cluster attempt) (attempt.changes records) (attempt.calls records).sent := by
  have all : ∀ change ∈ attempt.changes records, ∃ update, Sends records cluster attempt change update :=
    fun change => ready.sends
  unfold Attempt.calls
  generalize attempt.changes records = changes at all
  induction changes with
  | nil => exact .nil
  | cons change rest ih =>
    obtain ⟨update, sends⟩ := all change List.mem_cons_self
    have later := ih fun other member => all other (List.mem_cons_of_mem _ member)
    rw [List.foldr_cons, sends.saves]
    exact .cons sends later

end Saving

/-! ## The report after a refusal -/

theorem inInfraAccounts_iff (name : String) : inInfraAccounts (some name) = true ↔ name ∈ infraAccounts := by
  unfold inInfraAccounts
  rw [List.any_eq_true]
  simp only [decide_eq_true_eq, Option.some.injEq, exists_eq_right']

theorem forall₂_mem {α β : Type} {R : α → β → Prop} {first : List α} {second : List β}
    (related : List.Forall₂ R first second) :
    (∀ a ∈ first, ∃ b ∈ second, R a b) ∧ ∀ b ∈ second, ∃ a ∈ first, R a b := by
  induction related with
  | nil => exact ⟨fun _ => nofun, fun _ => nofun⟩
  | cons here _ ih =>
    refine ⟨List.forall_mem_cons.mpr ⟨⟨_, List.mem_cons_self, here⟩, fun a member => ?_⟩,
      List.forall_mem_cons.mpr ⟨⟨_, List.mem_cons_self, here⟩, fun b member => ?_⟩⟩
    · obtain ⟨b, there, both⟩ := ih.1 a member
      exact ⟨b, List.mem_cons_of_mem _ there, both⟩
    · obtain ⟨a, there, both⟩ := ih.2 b member
      exact ⟨a, List.mem_cons_of_mem _ there, both⟩

section Reporting

variable {tenant : String} {records : Records} {cluster : StalwartCluster} {attempt : Attempt} {n : ℕ}

theorem mem_left {live : Principal} :
    live ∈ (attempt.left records n).principals ↔ ∃ old ∈ attempt.content.principals,
      ((attempt.calls records).sent.take n).foldl setGroups old = live :=
  mem_foldl_accept

theorem Ready.names_iff (ready : Ready tenant records cluster attempt) {doc : Doc}
    (there : doc ∈ records.accounts) (own : doc.cluster = cluster.name) :
    (directoryReport records.directory cluster (attempt.left records n)).Names doc.name ↔
      localPart doc.name ∈ infraAccounts := by
  obtain ⟨inside, kind⟩ := mem_accounts.mp there
  obtain ⟨old, here, id, address, named, name⟩ := ready.mirrored.held doc inside own (Or.inl kind)
  have same := foldl_setGroups_toLive old ((attempt.calls records).sent.take n)
  have left : ((attempt.calls records).sent.take n).foldl setGroups old ∈
      (attempt.left records n).principals := mem_left.mpr ⟨old, here, rfl⟩
  rw [names_recorded inside own (Or.inl kind) left (by rw [same, id]) (by rw [same, address]) named, same,
    name, inInfraAccounts_iff]

theorem Ready.differs_iff (ready : Ready tenant records cluster attempt) {doc : Doc}
    (there : doc ∈ records.accounts) (own : doc.cluster = cluster.name) :
    (∃ live ∈ (attempt.left records n).principals, doc.stalwartId = some live.id ∧
      ∃ id, some id ≠ attempt.created ∧
        ¬ (id ∈ live.memberGroupIds ↔ id ∈ records.memberIds doc.name)) ↔
      attempt.created = none ∧ doc.name ∈ ((attempt.changes records).take n).map Prod.fst := by
  have related := forall₂_mem (List.forall₂_take n ready.sent)
  obtain ⟨docs, kind⟩ := mem_accounts.mp there
  -- An accepted update of the document's id is its own.
  have ownUpdate : ∀ {change update}, Sends records cluster attempt change update →
      doc.stalwartId = some update.id → change.1 = doc.name := by
    intro change update sends same
    obtain ⟨other, inside, otherOwn, named, id⟩ := sends.account
    obtain ⟨otherDocs, otherKind⟩ := mem_accounts.mp inside
    exact named.symm.trans (eq_of_id ready.mirrored otherDocs otherOwn (Or.inl otherKind) docs own
      (Or.inl kind) (id.trans same.symm))
  constructor
  · rintro ⟨live, left, id, given, other, different⟩
    obtain ⟨old, here, rfl⟩ := mem_left.mp left
    rw [foldl_setGroups_toLive] at id
    rcases foldl_setGroups_cases old ((attempt.calls records).sent.take n) with
      ⟨-, kept⟩ | ⟨update, member, same, groups⟩
    · rw [kept] at different
      exact absurd (ready.mirrored.members doc there own old here id given) different
    · obtain ⟨change, inside, sends⟩ := related.2 update member
      have name := ownUpdate sends (same ▸ id)
      rw [groups, ← name] at different
      refine ⟨?_, List.mem_map.mpr ⟨change, inside, name⟩⟩
      by_contra created
      exact different (sends.only created given other)
  · rintro ⟨created, member⟩
    obtain ⟨change, inside, name⟩ := List.mem_map.mp member
    obtain ⟨update, accepted, sends⟩ := related.1 change inside
    obtain ⟨account, accountThere, accountOwn, accountName, accountId⟩ := sends.account
    obtain ⟨old, here, id, address, -⟩ := ready.mirrored.held doc docs own (Or.inl kind)
    have same : doc.stalwartId = some update.id := by
      rw [← accountId]
      obtain ⟨accountDocs, accountKind⟩ := mem_accounts.mp accountThere
      have equal := List.inj_on_of_nodup_map records.directory.address_once
        (List.mem_filter.mpr ⟨accountDocs, decide_eq_true (by rw [accountKind]; decide)⟩)
        (List.mem_filter.mpr ⟨docs, decide_eq_true (by rw [kind]; decide)⟩) (accountName.trans name)
      rw [equal]
    refine ⟨_, mem_left.mpr ⟨old, here, rfl⟩, ?_, ?_⟩
    · rw [foldl_setGroups_toLive]
      exact id
    · rcases foldl_setGroups_cases old ((attempt.calls records).sent.take n) with
        ⟨none, -⟩ | ⟨last, member, own, groups⟩
      · exact absurd (Option.some.inj (same.symm.trans id)) (none update accepted)
      · obtain ⟨lastChange, -, lastSends⟩ := related.2 last member
        have lastName := ownUpdate lastSends (own ▸ id)
        obtain ⟨given, different⟩ := lastSends.differs
        rw [lastName, ← groups] at different
        exact ⟨given, created ▸ Option.some_ne_none given, different⟩

theorem Ready.names_group_iff (ready : Ready tenant records cluster attempt)
    (created : attempt.created ≠ none) :
    (directoryReport records.directory cluster (attempt.left records n)).Names attempt.group ↔
      localPart attempt.group ∉ infraAccounts := by
  obtain ⟨new, isNew⟩ := Option.ne_none_iff_exists'.mp created
  obtain ⟨unknown, -, old, here, address, named, name⟩ := ready.created new isNew
  have same := foldl_setGroups_toLive old ((attempt.calls records).sent.take n)
  have left : ((attempt.calls records).sent.take n).foldl setGroups old ∈
      (attempt.left records n).principals := mem_left.mpr ⟨old, here, rfl⟩
  rw [names_unrecorded left (by rw [same, address]) named unknown, same, name, ← Bool.not_eq_true,
    inInfraAccounts_iff]

/-- **The report after so many accepted updates.** -/
theorem Ready.shown_iff (ready : Ready tenant records cluster attempt) :
    Shown records cluster attempt (attempt.left records n) ↔
      if attempt.created = none then
        ∀ account ∈ ((attempt.changes records).take n).map Prod.fst, localPart account ∈ infraAccounts
      else localPart attempt.group ∉ infraAccounts := by
  split
  · rename_i created
    constructor
    · intro shown account member
      obtain ⟨change, inside, rfl⟩ := List.mem_map.mp member
      obtain ⟨update, -, sends⟩ := (forall₂_mem (List.forall₂_take n ready.sent)).1 change inside
      obtain ⟨doc, there, own, named, -⟩ := sends.account
      obtain ⟨live, left, id, differs⟩ := (ready.differs_iff (n := n) there own).mpr
        ⟨created, named ▸ member⟩
      rw [← named]
      exact (ready.names_iff there own).mp (shown.accounts doc there own live left id differs)
    · intro told
      refine ⟨fun new => absurd created new, fun doc there own live left id differs => ?_⟩
      have member := ((ready.differs_iff there own).mp ⟨live, left, id, differs⟩).2
      exact (ready.names_iff there own).mpr (told doc.name member)
  · rename_i created
    constructor
    · exact fun shown => (ready.names_group_iff created).mp (shown.group created)
    · intro told
      refine ⟨fun _ => (ready.names_group_iff created).mpr told,
        fun doc there own live left id differs => ?_⟩
      exact absurd ((ready.differs_iff there own).mp ⟨live, left, id, differs⟩).1 created

/-- **The condition.** For `set_members`: every account to be saved but the last is called `admin` or
`relay`, so that the report has an entry of it anyway. For `create_group`: nobody is to join, or the group
is not called so itself. -/
def Attempt.IsTold (records : Records) (attempt : Attempt) : Prop :=
  if attempt.created = none then
    ∀ account ∈ ((attempt.changes records).map Prod.fst).dropLast, localPart account ∈ infraAccounts
  else attempt.wanted = [] ∨ localPart attempt.group ∉ infraAccounts

theorem Ready.changes_of_created (ready : Ready tenant records cluster attempt)
    (created : attempt.created ≠ none) : attempt.changes records = [] ↔ attempt.wanted = [] := by
  obtain ⟨new, isNew⟩ := Option.ne_none_iff_exists'.mp created
  have nobody : records.memberEmails attempt.group = [] := by
    refine List.eq_nil_iff_forall_not_mem.mpr fun name member => ?_
    obtain ⟨doc, there, inside, -⟩ := mem_memberEmails.mp member
    obtain ⟨other, docs, kind, named, -⟩ := ready.mirrored.groups doc there _ inside
    refine (ready.created new isNew).1 other docs ?_ named
    rw [kind]
    decide
  have joining : attempt.changes records = [] ↔ ∀ name, name ∉ attempt.wanted := by
    unfold Attempt.changes
    rw [nobody, List.append_eq_nil_iff, List.map_eq_nil_iff, List.map_eq_nil_iff,
      List.eq_nil_iff_forall_not_mem, List.eq_nil_iff_forall_not_mem]
    simp only [mem_sortedDifference, List.not_mem_nil, not_false_eq_true, and_true, false_and, implies_true]
  rw [joining, List.eq_nil_iff_forall_not_mem]

/-- **A refused membership change is undone or shown exactly when** the accounts saved before the refused
one, whichever it is, are called `admin` or `relay`; and a group created for it is not. -/
theorem refused_membership_shown_iff {platform : Platform} {content : Content}
    (mirrored : Mirrored tenant records cluster content) {request : Request}
    (begun : request.begin platform tenant records content = some attempt) :
    (∀ n < (attempt.calls records).sent.length, Shown records cluster attempt (attempt.left records n)) ↔
      attempt.IsTold records := by
  have ready := ready_of_begin mirrored begun
  have length := ready.sent.length_eq
  unfold Attempt.IsTold
  simp only [ready.shown_iff, ← length]
  by_cases created : attempt.created = none
  · rw [if_pos created, List.dropLast_eq_take, List.length_map, ← List.map_take]
    simp only [if_pos created]
    constructor
    · intro shown
      by_cases none : attempt.changes records = []
      · rw [none]
        exact fun _ => nofun
      · exact shown _ (Nat.sub_lt (List.length_pos_iff.mpr none) Nat.one_pos)
    · intro told n short account member
      obtain ⟨change, inside, rfl⟩ := List.mem_map.mp member
      refine told change.1 (List.mem_map_of_mem ?_)
      exact List.take_subset_take_left _ (Nat.le_sub_one_of_lt short) inside
  · rw [if_neg created, ← ready.changes_of_created created]
    simp only [if_neg created]
    constructor
    · intro shown
      refine or_iff_not_imp_left.mpr fun some => ?_
      exact shown 0 (List.length_pos_iff.mpr some)
    · rintro (none | told) n short
      · rw [none] at short
        cases short
      · exact told

end Reporting

/-! ## Two accounts and a group -/

/-- A tenant's domain, its accounts `ann` and `bob`, and a group without members. -/
def smallRecords : Records where
  directory :=
    { tenants := [("t", some "c")]
      docs := [⟨.mailDomain, "a.io", "t", "c", some "d"⟩, ⟨.mailAccount, "ann@a.io", "t", "c", some "1"⟩,
        ⟨.mailAccount, "bob@a.io", "t", "c", some "2"⟩, ⟨.mailGroup, "team@a.io", "t", "c", some "9"⟩]
      domain_once := by decide
      address_once := by decide }
  groups := fun _ => []

def smallCluster : StalwartCluster := ⟨"c", "c.net"⟩

/-- An object of the cluster with its name and address, in no group. -/
def smallPrincipal (id name email : String) (kind : Kind) : Principal where
  id := id
  name := some name
  domainId := some "d"
  emailAddress := some email
  description := none
  aliases := []
  kind := kind
  locale := none
  timeZone := none
  memberGroupIds := []
  disabledPermissions := []
  quotas := []
  customRoles := none

/-- The same on the cluster. -/
def smallContent : Content where
  domains := [⟨"d", "a.io", none, true, none, none, false⟩]
  principals := [smallPrincipal "1" "ann" "ann@a.io" .user, smallPrincipal "2" "bob" "bob@a.io" .user,
    smallPrincipal "9" "team" "team@a.io" .group]
  lists := []
  disabledRole := none
  domain_once := by decide
  principal_once := by decide
  list_once := List.nodup_nil

theorem smallContent_mirrored : Mirrored "t" smallRecords smallCluster smallContent where
  ids := by decide
  home := by decide
  held := by decide
  members := by
    intro doc _ _ live here _ id
    have none : ∀ live ∈ smallContent.principals, live.memberGroupIds = [] := by decide
    rw [none live here]
    rfl
  groups := fun _ _ _ => nofun

/-- One account joins: whatever is refused, nothing is left. -/
theorem refused_membership_of_one :
    Mirrored "t" smallRecords smallCluster smallContent ∧
    ∃ attempt, (Request.setMembers "team@a.io" ["ann@a.io"]).begin asciiPlatform "t" smallRecords smallContent =
        some attempt ∧ (attempt.calls smallRecords).sent.length = 1 ∧
      ∀ n < (attempt.calls smallRecords).sent.length,
        Shown smallRecords smallCluster attempt (attempt.left smallRecords n) := by
  have begins : ((Request.setMembers "team@a.io" ["ann@a.io"]).begin asciiPlatform "t" smallRecords
      smallContent).map (fun attempt => (attempt.created, ((attempt.changes smallRecords).map Prod.fst).dropLast,
        (attempt.calls smallRecords).sent.length)) = some (none, [], 1) := by decide
  obtain ⟨attempt, begun, same⟩ := Option.map_eq_some_iff.mp begins
  obtain ⟨created, same⟩ := Prod.mk.inj same
  obtain ⟨none, one⟩ := Prod.mk.inj same
  refine ⟨smallContent_mirrored, attempt, begun, one, ?_⟩
  refine (refused_membership_shown_iff smallContent_mirrored begun).mpr ?_
  unfold Attempt.IsTold
  rw [if_pos created, none]
  exact fun _ => nofun

/-- **A member left behind**: `ann` and `bob` are to join, the update of `bob` is refused; `ann` stays in
the group on the cluster, and the report is empty. -/
theorem member_left_behind :
    Mirrored "t" smallRecords smallCluster smallContent ∧
    ∃ attempt, (Request.setMembers "team@a.io" ["ann@a.io", "bob@a.io"]).begin asciiPlatform "t" smallRecords
        smallContent = some attempt ∧
      ∃ n < (attempt.calls smallRecords).sent.length,
        ¬ Shown smallRecords smallCluster attempt (attempt.left smallRecords n) := by
  let request : Request := .setMembers "team@a.io" ["ann@a.io", "bob@a.io"]
  have begins : (request.begin asciiPlatform "t" smallRecords smallContent).map (fun attempt =>
      (attempt.created, (attempt.calls smallRecords).sent.length,
        (attempt.left smallRecords 1).principals.map fun live => (live.id, live.memberGroupIds))) =
      some (none, 2, [("1", ["9"]), ("2", []), ("9", [])]) := by decide
  have reports : (request.begin asciiPlatform "t" smallRecords smallContent).map (fun attempt =>
      let report := directoryReport smallRecords.directory smallCluster (attempt.left smallRecords 1)
      (report.missingOnStalwart, report.orphansOnStalwart, report.idMismatch)) =
      some ([], [], []) := by decide
  obtain ⟨attempt, begun, same⟩ := Option.map_eq_some_iff.mp begins
  simp only [Prod.mk.injEq] at same
  obtain ⟨created, two, groups⟩ := same
  rw [begun, Option.map_some] at reports
  simp only [Option.some.injEq, Prod.mk.injEq] at reports
  obtain ⟨missing, orphans, mismatch⟩ := reports
  refine ⟨smallContent_mirrored, attempt, begun, 1, two ▸ Nat.one_lt_two, fun shown => ?_⟩
  have inside : ("1", ["9"]) ∈ (attempt.left smallRecords 1).principals.map fun live =>
      (live.id, live.memberGroupIds) := groups ▸ List.mem_cons_self
  obtain ⟨live, left, same⟩ := List.mem_map.mp inside
  obtain ⟨id, member⟩ := Prod.mk.inj same
  have names := shown.accounts ⟨.mailAccount, "ann@a.io", "t", "c", some "1"⟩ (by decide) rfl live left
    (congrArg some id.symm) ⟨"9", created ▸ Option.some_ne_none _, fun same => ?_⟩
  · rw [Report.Names, missing, orphans, mismatch] at names
    rcases names with none | none | ⟨ours, theirs, none⟩
    · cases none
    · cases none
    · cases none
  · rw [member] at same
    exact absurd (same.mp List.mem_cons_self) List.not_mem_nil

end SuiteCloud.Mail.Cluster.Reconcile
