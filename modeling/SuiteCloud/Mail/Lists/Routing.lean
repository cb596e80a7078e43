/-
**Where a tenant routes mail to.**

`assert_addresses_deliverable`, `assert_domain_available` and `assert_hosted_domain` of
`suite_cloud/mail/tenancy/addresses.py`, with the Mail Domains and the recipients they are asked about. A
recipient and a catch-all address are checked against the domains there are when they are written; a
domain that is added later is checked against the other domains alone.

* `step` — the adds, saves and deletes of domains, beside the operations on lists of `Lists.step`.
* `Separate` — no enabled recipient and no catch-all address is on another tenant's domain.
* `mail_stays_out_of_foreign_domains` — **nobody routes into another tenant's domain** in a run in which
  a domain is added only while no other tenant routes to it.
* `domain_added_under_a_recipient` — a recipient first, the domain after it.

The proof of control of a domain, the limits of the tenant and what a delete is refused for only refuse
more, and are left out. Adoption writes the recipients it records as `add_recipients` does.
-/

import SuiteCloud.Library.Keyed
import SuiteCloud.Mail.Lists.Mirror

namespace SuiteCloud.Mail.Lists.Routing

open SuiteCloud.Library SuiteCloud.Mail.Tenancy

/-! ## Domains -/

/-- A Mail Domain. -/
structure MailDomain where
  name : String
  tenant : String
  catchAllAddress : Option String
  deriving DecidableEq

/-- The domains of all tenants. -/
abbrev Domains := Keyed String MailDomain MailDomain.name

/-- The tenant that holds a domain. -/
def ownerOf (domains : Domains) (name : String) : Option String :=
  (domains.get name).map MailDomain.tenant

/-- What the checks of a domain's name read: the DNS Zones, the tenant mail zone, and the labels of each
tenant's live sites. -/
structure Zones where
  zones : List String
  tenantMailZone : String
  sites : List (String × String)

/-- `assert_domain_not_reserved`. -/
def assertDomainNotReserved (zones : Zones) (name : String) : Bool :=
  zones.zones.all fun zone => name ≠ zone && !("." ++ zone).toList.isSuffixOf name.toList

/-- `assert_domain_available`. -/
def assertDomainAvailable (zones : Zones) (domains : Domains) (name : String) : Bool :=
  (ownerOf domains name).isNone && assertDomainNotReserved zones name

/-- `assert_hosted_domain`. -/
def assertHostedDomain (zones : Zones) (domains : Domains) (name tenant : String) : Bool :=
  let suffix := ("." ++ zones.tenantMailZone).toList
  let label := String.ofList (name.toList.take (name.length - suffix.length))
  zones.tenantMailZone ≠ "" && suffix.isSuffixOf name.toList && decide ('.' ∉ label.toList) &&
    (ownerOf domains name).isNone && decide ((tenant, label) ∈ zones.sites)

/-- How a domain comes to be added. -/
inductive Way
  | added
  | hosted
  /-- The cluster already holds it: only its name must be free. -/
  | adopted
  deriving DecidableEq

/-- `assert_can_be_added`. -/
def assertCanBeAdded (zones : Zones) (domains : Domains) (name tenant : String) : Way → Bool
  | .added => assertDomainAvailable zones domains name
  | .hosted => assertHostedDomain zones domains name tenant
  | .adopted => true

variable (platform : Platform) (zones : Zones)

/-- The catch-all address of a domain that is saved, as it is stored; `none` is a raise. -/
def validateCatchAll (domains : Domains) (tenant : String) : Option String → Option (Option String)
  | none => some none
  | some text =>
      ((platform.validateEmailAddress text).filter fun address =>
        assertAddressesDeliverable (ownerOf domains) tenant [address]).map some

/-! ## Runs -/

/-- The domains, and the lists with their recipients; `lists.owner` is what the lists' checks read of the
domains. -/
structure State where
  domains : Domains
  lists : Lists.State

def State.initial : State := ⟨∅, Lists.State.initial fun _ => none⟩

inductive Action
  | insertDomain (way : Way) (name tenant : String) (catchAll : Option String)
  | saveDomain (name : String) (catchAll : Option String)
  | deleteDomain (name : String)
  /-- An operation on a list or on its recipients. -/
  | list (action : Lists.Action)

/-- Other domains, in the lists' checks too. -/
def State.setDomains (s : State) (domains : Domains) : State :=
  ⟨domains, { s.lists with owner := ownerOf domains }⟩

/-- An operation on a list, as opposed to the domains it is checked against. -/
def isListAction : Lists.Action → Bool
  | .domains _ => false
  | _ => true

/-- **One operation, taken to its commit**; `none` where it raises. -/
def step (s : State) : Action → Option State
  | .insertDomain way name tenant catchAll =>
      (platform.validateDomainName name).bind fun name =>
        if assertCanBeAdded zones s.domains name tenant way then
          (validateCatchAll platform s.domains tenant catchAll).bind fun catchAll =>
            (s.domains.insert ⟨name, tenant, catchAll⟩).map s.setDomains
        else none
  | .saveDomain name catchAll =>
      (s.domains.get name).bind fun domain =>
        (validateCatchAll platform s.domains domain.tenant catchAll).map fun catchAll =>
          s.setDomains (s.domains.put { domain with catchAllAddress := catchAll })
  | .deleteDomain name => some (s.setDomains (s.domains.erase name))
  | .list action =>
      if isListAction action then
        (Lists.step platform s.lists action).map fun lists => { s with lists := lists }
      else none

/-! ## Separate -/

/-- An address of a tenant is on no domain that another tenant holds. -/
def IsOwn (owner : String → Option String) (tenant address : String) : Prop :=
  ∀ holder, owner (domainPart address) = some holder → holder = tenant

/-- **No tenant routes mail into another tenant's domain.** -/
structure Separate (s : State) : Prop where
  recipients : ∀ row ∈ s.lists.table.rows, row.enabled → IsOwn (ownerOf s.domains) row.tenant row.email
  catchAlls : ∀ domain ∈ s.domains, ∀ address, domain.catchAllAddress = some address →
    IsOwn (ownerOf s.domains) domain.tenant address

/-- **The condition**: a domain is added while no other tenant has an enabled recipient or a catch-all
address on it. -/
def addsUnrouted (s : State) : Action → Prop
  | .insertDomain _ name tenant _ => ∀ stored ∈ platform.validateDomainName name,
      (∀ row ∈ s.lists.table.rows, row.enabled → domainPart row.email = stored → row.tenant = tenant) ∧
        ∀ domain ∈ s.domains.rows, ∀ address ∈ domain.catchAllAddress,
          domainPart address = stored → domain.tenant = tenant
  | _ => True

instance (s : State) (action : Action) : Decidable (addsUnrouted platform s action) :=
  match action with
  | .insertDomain _ name tenant _ => inferInstanceAs (Decidable (
      ∀ stored ∈ platform.validateDomainName name,
        (∀ row ∈ s.lists.table.rows, row.enabled → domainPart row.email = stored → row.tenant = tenant) ∧
          ∀ domain ∈ s.domains.rows, ∀ address ∈ domain.catchAllAddress,
            domainPart address = stored → domain.tenant = tenant))
  | .saveDomain _ _ | .deleteDomain _ | .list _ => inferInstanceAs (Decidable True)

/-! ## The rows of the lists -/

/-- Every enabled row is its tenant's own, by what is known of the domains. -/
def Inside (owner : String → Option String) (table : Table) : Prop :=
  ∀ row ∈ table.rows, row.enabled → IsOwn owner row.tenant row.email

variable {platform zones} {owner : String → Option String} {table : Table} {list : MailingList}
variable {emails : List String} {email : String}

theorem isOwn_of_deliverable {tenant : String} (at_ : '@' ∈ email.toList) (member : email ∈ emails)
    (passes : assertAddressesDeliverable owner tenant emails) : IsOwn owner tenant email := by
  intro holder held
  have checked := List.all_eq_true.mp passes email member
  exact decide_eq_true_iff.mp checked at_ holder held

theorem Inside.filter (inside : Inside owner table) (keeps : MailingListRecipient → Bool) :
    Inside owner { table with rows := table.rows.filter keeps } := by
  intro row member
  exact inside row (List.mem_of_mem_filter member)

theorem Inside.insert (inside : Inside owner table) {enabled : Bool}
    (own : IsOwn owner list.tenant email) : Inside owner (table.insert list email enabled) := by
  intro row member
  rcases List.mem_append.mp member with there | new
  · exact inside row there
  · obtain rfl := List.mem_singleton.mp new
    exact fun _ => own

theorem Inside.bulkInsert (inside : Inside owner table)
    (own : ∀ email ∈ emails, IsOwn owner list.tenant email) :
    Inside owner (table.bulkInsert list emails) := by
  unfold Table.bulkInsert
  induction emails generalizing table with
  | nil => exact inside
  | cons email rest ih =>
    rw [List.foldl_cons]
    refine ih ?_ fun other member => own other (List.mem_cons_of_mem _ member)
    split
    · exact inside
    · exact inside.insert (own email List.mem_cons_self)

theorem wanted_isOwn {wanted : List String}
    (passed : wantedRecipients platform list owner emails = some wanted) :
    ∀ email ∈ wanted, IsOwn owner list.tenant email := by
  intro email member
  obtain ⟨-, checks⟩ := Option.filter_eq_some_iff.mp passed
  rw [Bool.and_eq_true] at checks
  obtain ⟨text, -, valid⟩ := ((wantedRecipients_eq_some passed).2 email).mp member
  exact isOwn_of_deliverable (validateEmailAddress_at valid) member checks.2

theorem Inside.addRecipients (inside : Inside owner table) (id : list.stalwartId ≠ none)
    {added : Table × List String}
    (ends : (addRecipients platform list owner table emails true).ends = some added) :
    Inside owner added.1 := by
  cases passed : wantedRecipients platform list owner emails with
  | none =>
    rw [Lists.addRecipients, passed] at ends
    cases ends
  | some wanted =>
    rw [addRecipients_eq passed id] at ends
    obtain rfl := Option.some.inj ends
    refine inside.bulkInsert ?_
    intro email member
    exact wanted_isOwn passed email (mem_candidates.mp member).1

theorem Inside.removeRecipients (inside : Inside owner table) (sound : table.Sound platform)
    (id : list.stalwartId ≠ none) {removed : Table × List String}
    (ends : (removeRecipients platform list table emails).ends = some removed) :
    Inside owner removed.1 := by
  cases turned : emails.mapM platform.validateEmailAddress with
  | none =>
    rw [Lists.removeRecipients, turned] at ends
    cases ends
  | some wanted =>
    rw [removeRecipients_eq sound turned id] at ends
    obtain rfl := Option.some.inj ends
    exact inside.filter _

/-- **A bulk request** leaves rows of the tenant's own. -/
theorem Inside.request (inside : Inside owner table) (sound : table.Sound platform)
    (id : list.stalwartId ≠ none) {request : Request} {left : Table}
    (ends : (request.calls platform list owner table).ends = some left) : Inside owner left := by
  cases request with
  | addRecipients emails =>
    rw [Request.calls, Calls.bind_done] at ends
    obtain ⟨added, gave, rfl⟩ := Option.map_eq_some_iff.mp ends
    exact inside.addRecipients id gave
  | removeRecipients emails =>
    rw [Request.calls, Calls.bind_done] at ends
    obtain ⟨removed, gave, rfl⟩ := Option.map_eq_some_iff.mp ends
    exact inside.removeRecipients sound id gave
  | setRecipients emails =>
    cases turned : emails.mapM platform.validateEmailAddress with
    | none =>
      rw [Request.calls, Lists.setRecipients, turned] at ends
      cases ends
    | some wanted =>
      obtain ⟨removed, gone, equation⟩ := setRecipients_parts owner turned sound id
      rw [Request.calls, equation] at ends
      obtain ⟨added, gave, rfl⟩ := Option.map_eq_some_iff.mp ends
      exact (inside.removeRecipients sound id gone).addRecipients id gave

theorem Inside.insertRecipient (inside : Inside owner table) {enabled : Bool} {left : Table}
    (ends : (insertRecipient platform list owner table email enabled).ends = some left) :
    Inside owner left := by
  cases stored : platform.validateEmailAddress email with
  | none =>
    rw [Lists.insertRecipient, stored] at ends
    cases ends
  | some address =>
    rw [Lists.insertRecipient, stored, Calls.ofOption_some_bind] at ends
    obtain ⟨passes, rest⟩ := check_bind ends
    rw [rest, Calls.bind_done] at ends
    obtain ⟨-, -, rfl⟩ := Option.map_eq_some_iff.mp ends
    rw [Bool.and_eq_true, isRecipientAllowed, Bool.and_eq_true] at passes
    exact inside.insert
      (isOwn_of_deliverable (validateEmailAddress_at stored) (List.mem_singleton_self _) passes.1.2)

theorem Inside.saveRecipient (inside : Inside owner table) (sound : table.Sound platform)
    {row : MailingListRecipient} (there : row ∈ table.rows) {enabled : Bool} {left : Table}
    (ends : (saveRecipient platform list owner table row enabled).ends = some left) :
    Inside owner left := by
  have stored := sound.stored row there
  rw [Lists.saveRecipient, stored, Calls.ofOption_some_bind] at ends
  obtain ⟨passes, rest⟩ := check_bind ends
  rw [rest, Calls.bind_done] at ends
  obtain ⟨-, -, rfl⟩ := Option.map_eq_some_iff.mp ends
  rw [isRecipientAllowed, Bool.and_eq_true] at passes
  have own : IsOwn owner list.tenant row.email :=
    isOwn_of_deliverable (validateEmailAddress_at stored) (List.mem_singleton_self _) passes.2
  intro saved member
  obtain ⟨other, before, rfl⟩ := List.mem_map.mp member
  split
  · next same =>
    obtain rfl := List.inj_on_of_nodup_map sound.names before there same
    exact fun _ => own
  · exact inside other before

theorem Inside.deleteRecipient (inside : Inside owner table) {row : MailingListRecipient} {left : Table}
    (ends : (deleteRecipient list table row).ends = some left) : Inside owner left := by
  rw [Lists.deleteRecipient, Calls.bind_done] at ends
  obtain ⟨-, -, rfl⟩ := Option.map_eq_some_iff.mp ends
  exact inside.filter _

theorem inside_step {s s' : Lists.State} {action : Lists.Action} (mirrored : Mirrored platform s)
    (inside : Inside s.owner s.table) (kind : isListAction action)
    (taken : Lists.step platform s action = some s') :
    Inside s'.owner s'.table ∧ s'.owner = s.owner := by
  cases action with
  | createMailingList email tenant stalwartId =>
    obtain ⟨name, -, taken⟩ := Option.bind_eq_some_iff.mp taken
    split at taken
    · cases taken
    · obtain rfl := Option.some.inj taken
      exact ⟨inside, rfl⟩
  | deleteMailingList name =>
    obtain ⟨list, -, rfl⟩ := Option.map_eq_some_iff.mp taken
    exact ⟨inside.filter _, rfl⟩
  | request name request =>
    obtain ⟨list, here, taken⟩ := Option.bind_eq_some_iff.mp taken
    obtain ⟨left, ends, rfl⟩ := Option.map_eq_some_iff.mp taken
    exact ⟨inside.request mirrored.sound (mirrored.own here).2 ends, rfl⟩
  | insertRecipient name email enabled =>
    obtain ⟨list, here, taken⟩ := Option.bind_eq_some_iff.mp taken
    obtain ⟨left, ends, rfl⟩ := Option.map_eq_some_iff.mp taken
    exact ⟨inside.insertRecipient ends, rfl⟩
  | saveRecipient row enabled =>
    obtain ⟨found, here, taken⟩ := Option.bind_eq_some_iff.mp taken
    obtain ⟨left, ends, rfl⟩ := Option.map_eq_some_iff.mp taken
    exact ⟨inside.saveRecipient mirrored.sound (row_eq_some here).1 ends, rfl⟩
  | deleteRecipient row =>
    obtain ⟨found, here, taken⟩ := Option.bind_eq_some_iff.mp taken
    obtain ⟨left, ends, rfl⟩ := Option.map_eq_some_iff.mp taken
    exact ⟨inside.deleteRecipient ends, rfl⟩
  | domains owner => cases kind

/-! ## The invariant -/

/-- The lists are checked against the domains there are, and nobody routes out of their own. -/
structure Fine (platform : Platform) (s : State) : Prop where
  owner : s.lists.owner = ownerOf s.domains
  mirrored : Mirrored platform s.lists
  separate : Separate s

variable {s s' : State}

theorem ownerOf_insert {domains left : Domains} {row : MailDomain}
    (inserted : domains.insert row = some left) (name : String) :
    ownerOf left name = if name = row.name then some row.tenant else ownerOf domains name := by
  unfold ownerOf
  rw [Keyed.get_insert inserted]
  split <;> rfl

theorem ownerOf_put {domains : Domains} {before : MailDomain} (row : MailDomain)
    (found : domains.get row.name = some before) (same : row.tenant = before.tenant)
    (name : String) : ownerOf (domains.put row) name = ownerOf domains name := by
  unfold ownerOf
  rw [Keyed.get_put found]
  split
  · next equal =>
    rw [equal, found, Option.map_some, Option.map_some, same]
  · rfl

theorem validateCatchAll_isOwn {domains : Domains} {tenant address : String}
    {given stored : Option String} (valid : validateCatchAll platform domains tenant given = some stored)
    (has : stored = some address) : IsOwn (ownerOf domains) tenant address := by
  cases given with
  | none =>
    obtain rfl := Option.some.inj valid
    cases has
  | some text =>
    obtain ⟨checked, passes, rfl⟩ := Option.map_eq_some_iff.mp valid
    obtain rfl := Option.some.inj has
    obtain ⟨stored, deliverable⟩ := Option.filter_eq_some_iff.mp passes
    exact isOwn_of_deliverable (validateEmailAddress_at stored) (List.mem_singleton_self _) deliverable

theorem Fine.setDomains (here : Fine platform s) (domains : Domains)
    (recipients : ∀ row ∈ s.lists.table.rows, row.enabled → IsOwn (ownerOf domains) row.tenant row.email)
    (catchAlls : ∀ domain ∈ domains, ∀ address, domain.catchAllAddress = some address →
      IsOwn (ownerOf domains) domain.tenant address) : Fine platform (s.setDomains domains) := by
  have moved : Lists.step platform s.lists (.domains (ownerOf domains)) =
      some { s.lists with owner := ownerOf domains } := rfl
  exact ⟨rfl, here.mirrored.step moved, recipients, catchAlls⟩

/-- An address on a domain that is new, or whose holder is as it was. -/
theorem IsOwn.insert {domains left : Domains} {row : MailDomain} {tenant address : String}
    (own : IsOwn (ownerOf domains) tenant address) (inserted : domains.insert row = some left)
    (new : domainPart address = row.name → tenant = row.tenant) : IsOwn (ownerOf left) tenant address := by
  intro holder held
  rw [ownerOf_insert inserted] at held
  split at held
  · next same => exact (Option.some.inj held).symm.trans (new same).symm
  · exact own holder held

theorem Fine.insertDomain (here : Fine platform s) {row : MailDomain} {left : Domains}
    (inserted : s.domains.insert row = some left)
    (catchAll : ∀ address, row.catchAllAddress = some address →
      IsOwn (ownerOf s.domains) row.tenant address)
    (recipients : ∀ other ∈ s.lists.table.rows, other.enabled →
      domainPart other.email = row.name → other.tenant = row.tenant)
    (catchAlls : ∀ domain ∈ s.domains, ∀ address, domain.catchAllAddress = some address →
      domainPart address = row.name → domain.tenant = row.tenant) :
    Fine platform (s.setDomains left) := by
  refine here.setDomains left ?_ ?_
  · intro other there enabled
    exact (here.separate.recipients other there enabled).insert inserted (recipients other there enabled)
  · intro domain there address has
    rcases ((Keyed.mem_insert inserted).2 domain).mp there with rfl | there
    · exact (catchAll address has).insert inserted fun _ => rfl
    · exact (here.separate.catchAlls domain there address has).insert inserted
        (catchAlls domain there address has)

theorem fine_step {action : Action} (here : Fine platform s) (unrouted : addsUnrouted platform s action)
    (taken : step platform zones s action = some s') : Fine platform s' := by
  cases action with
  | insertDomain way name tenant catchAll =>
    obtain ⟨stored, valid, taken⟩ := Option.bind_eq_some_iff.mp taken
    obtain ⟨recipients, catchAlls⟩ := unrouted stored valid
    split at taken
    case isTrue =>
      obtain ⟨checked, passes, taken⟩ := Option.bind_eq_some_iff.mp taken
      obtain ⟨left, inserted, rfl⟩ := Option.map_eq_some_iff.mp taken
      exact here.insertDomain inserted (fun address => validateCatchAll_isOwn passes) recipients catchAlls
    case isFalse => cases taken
  | saveDomain name catchAll =>
    obtain ⟨domain, found, taken⟩ := Option.bind_eq_some_iff.mp taken
    obtain ⟨checked, passes, rfl⟩ := Option.map_eq_some_iff.mp taken
    obtain ⟨member, rfl⟩ := Keyed.get_eq_some.mp found
    have holders : ownerOf (s.domains.put { domain with catchAllAddress := checked }) =
        ownerOf s.domains := funext (ownerOf_put { domain with catchAllAddress := checked } found rfl)
    refine here.setDomains _ ?_ ?_
    · rw [holders]
      exact here.separate.recipients
    · rw [holders]
      intro other there address has
      have named : domain.name = MailDomain.name { domain with catchAllAddress := checked } := rfl
      rcases (Keyed.mem_put member named).mp there with rfl | ⟨there, -⟩
      · exact validateCatchAll_isOwn passes has
      · exact here.separate.catchAlls other there address has
  | deleteDomain name =>
    obtain rfl := Option.some.inj taken
    have fewer : ∀ {tenant address}, IsOwn (ownerOf s.domains) tenant address →
        IsOwn (ownerOf (s.domains.erase name)) tenant address := by
      intro tenant address own holder held
      unfold ownerOf at held
      rw [Keyed.get_erase] at held
      split at held
      · cases held
      · exact own holder held
    refine here.setDomains _ ?_ ?_
    · intro row there enabled
      exact fewer (here.separate.recipients row there enabled)
    · intro domain there address has
      exact fewer (here.separate.catchAlls domain (Keyed.mem_erase.mp there).1 address has)
  | list action =>
    simp only [step] at taken
    split at taken
    case isTrue kind =>
      obtain ⟨lists, moved, rfl⟩ := Option.map_eq_some_iff.mp taken
      have before : Inside s.lists.owner s.lists.table := by
        rw [here.owner]
        exact here.separate.recipients
      obtain ⟨inside, same⟩ := inside_step here.mirrored before kind moved
      have owner : lists.owner = ownerOf s.domains := same.trans here.owner
      refine ⟨owner, here.mirrored.step moved, ?_, here.separate.catchAlls⟩
      rw [owner] at inside
      exact inside
    case isFalse => cases taken

/-! ## Nobody routes into another tenant's domain -/

theorem fine_initial : Fine platform State.initial := by
  refine ⟨rfl, mirrored_initial _, ?_, ?_⟩
  · intro row there
    cases there
  · intro domain there
    cases there

variable (platform zones)

/-- **No tenant routes mail into another tenant's domain** in a run in which every domain is added while
no other tenant has an enabled recipient or a catch-all address on it. -/
theorem mail_stays_out_of_foreign_domains (s : State)
    (reached : Reaches (step platform zones) (addsUnrouted platform) State.initial s) : Separate s := by
  have fine : Fine platform s := by
    refine reached.invariant (Fine platform) fine_initial ?_
    intro here there action fine unrouted taken
    exact fine_step fine unrouted taken
  exact fine.separate

/-- No zones, and no sites. -/
def noZones : Zones := ⟨[], "", []⟩

/-- A list of one tenant, and another tenant that adds the domain of an address before or after it is on
the list. -/
def aListOfA : List Action :=
  [.insertDomain .added "a.io" "a" none, .list (.createMailingList "team@a.io" "a" "1")]

/-- The domain is there first: the recipient is refused, and another one is not. -/
theorem mail_stays_out_once_held :
    ∃ s, Reaches (step asciiPlatform noZones) (addsUnrouted asciiPlatform) State.initial s ∧
      s.domains.rows.map (·.name) = ["b.io", "a.io"] ∧
      s.lists.table.rows.map (·.email) = ["ann@c.io"] ∧ Separate s := by
  have meets : RunMeets (step asciiPlatform noZones) (addsUnrouted asciiPlatform) State.initial
      (aListOfA ++ [Action.insertDomain .added "b.io" "b" none,
        .list (.request "team@a.io" (.addRecipients ["ann@c.io"]))]) := by decide +kernel
  have seen : (run (step asciiPlatform noZones) State.initial
      (aListOfA ++ [Action.insertDomain .added "b.io" "b" none,
        .list (.request "team@a.io" (.addRecipients ["ann@c.io"]))])).map (fun s =>
          (s.domains.rows.map (·.name), s.lists.table.rows.map (·.email))) =
      some (["b.io", "a.io"], ["ann@c.io"]) := by decide +kernel
  obtain ⟨s, ends, both⟩ := Option.map_eq_some_iff.mp seen
  injection both with names emails
  have reached := reaches_of_run meets ends
  exact ⟨s, reached, names, emails, mail_stays_out_of_foreign_domains asciiPlatform noZones s reached⟩

/-- **A domain is added under a recipient**: the address was nobody's when it was put on the list, and
is on another tenant's domain from then on. -/
theorem domain_added_under_a_recipient :
    ¬ ∀ s, Reaches (step asciiPlatform noZones) anyStep State.initial s → Separate s := by
  intro separate
  have seen : (run (step asciiPlatform noZones) State.initial
      (aListOfA ++ [Action.list (.request "team@a.io" (.addRecipients ["ann@b.io"])),
        .insertDomain .added "b.io" "b" none])).map (fun s =>
          (s.lists.table.rows, ownerOf s.domains "b.io")) =
      some ([⟨0, "team@a.io", "ann@b.io", true, "a"⟩], some "b") := by decide +kernel
  obtain ⟨s, ends, both⟩ := Option.map_eq_some_iff.mp seen
  injection both with rows holder
  have here := separate s (reaches_of_run (runMeets_of_forall fun _ _ _ => trivial) ends)
  have own := here.recipients ⟨0, "team@a.io", "ann@b.io", true, "a"⟩
    (by rw [rows]; exact List.mem_cons_self) rfl
  exact absurd (own "b" holder) (by decide)

end SuiteCloud.Mail.Lists.Routing
