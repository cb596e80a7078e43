/-
**What each operation of the directory does.**

One lemma for each: what was checked, and the state it leaves.

* `assertAddressAvailable_eq_true`, `validateAliases_eq_some`, `validateGroups_eq_true` — the checks.
* `Form.validate_eq_some` — **what a save writes** (`Written`).
* `insertDocument_eq_some`, … , `deletePool_eq_some` — the operations.
-/

import SuiteCloud.Mail.Directory.Model

namespace SuiteCloud.Mail.Directory

open SuiteCloud.Library SuiteCloud.Mail.Tenancy

variable {platform : Platform} {s s' : State} {documents : Documents}

/-! ### What validation writes -/

section Validation

variable {doctype : Doctype} {name email tenant : String}

theorem mem_addressDoctypes (doctype : Doctype) : doctype ∈ addressDoctypes := by
  cases doctype <;> decide

/-- **A free address**: no document of this name but the one left out, and the alias row that is read is
that document's. -/
theorem assertAddressAvailable_eq_true {exclude : Option (Doctype × String)}
    (free : assertAddressAvailable documents email exclude = true) :
    (∀ document ∈ documents, document.name = email → exclude = some document.key) ∧
      ∀ parent, aliasParent documents email = some parent → some parent = exclude := by
  rw [assertAddressAvailable, Bool.and_eq_true, List.all_eq_true] at free
  refine ⟨fun document here same => ?_, fun parent found => ?_⟩
  · have either := free.1 document.doctype (mem_addressDoctypes _)
    rw [Bool.or_eq_true, decide_eq_true_iff, Option.isNone_iff_eq_none] at either
    rcases either with excluded | absent
    · rw [excluded, ← same]
      rfl
    · exact absurd (congrArg (Prod.mk document.doctype) same) (Keyed.get_eq_none.mp absent document here)
  · have parents := free.2
    rw [found] at parents
    exact decide_eq_true_iff.mp parents

theorem aliasParent_eq_some {parent : Doctype × String} (found : aliasParent documents email = some parent) :
    ∃ document ∈ documents, document.key = parent ∧ email ∈ document.aliases := by
  obtain ⟨document, first, rfl⟩ := Option.map_eq_some_iff.mp found
  exact ⟨document, List.mem_of_find?_eq_some first, rfl,
    decide_eq_true_iff.mp (List.find?_some (p := fun other : Document => decide (email ∈ other.aliases)) first)⟩

theorem aliasParent_isSome {document : Document} (here : document ∈ documents)
    (listed : email ∈ document.aliases) : ∃ parent, aliasParent documents email = some parent := by
  cases found : documents.rows.find? fun other : Document => decide (email ∈ other.aliases) with
  | none => exact absurd (decide_eq_true listed) (List.find?_eq_none.mp found document here)
  | some first => exact ⟨first.key, by rw [aliasParent, found, Option.map_some]⟩

/-- **The aliases written**: distinct, in their stored form, on a domain of the tenant, and free. -/
theorem validateAliases_eq_some {seen texts aliases : List String}
    (written : validateAliases platform s doctype name email tenant seen texts = some aliases) :
    aliases.Nodup ∧ ∀ aliasEmail ∈ aliases, aliasEmail ≠ email ∧ aliasEmail ∉ seen ∧
      platform.validateEmailAddress aliasEmail = some aliasEmail ∧
      (s.domains.get (domainPart aliasEmail)).map (·.tenant) = some tenant ∧
      assertAddressAvailable s.documents aliasEmail (some (doctype, name)) = true := by
  induction texts generalizing seen aliases with
  | nil =>
    obtain rfl := Option.some.inj written
    exact ⟨List.nodup_nil, fun _ member => absurd member List.not_mem_nil⟩
  | cons text rest ih =>
    rw [validateAliases] at written
    obtain ⟨first, stored, written⟩ := Option.bind_eq_some_iff.mp written
    split at written
    · rename_i free
      obtain ⟨others, later, rfl⟩ := Option.map_eq_some_iff.mp written
      obtain ⟨distinct, facts⟩ := ih later
      refine ⟨List.nodup_cons.mpr ⟨fun member => ?_, distinct⟩, ?_⟩
      · exact (facts first member).2.1 List.mem_cons_self
      · intro aliasEmail member
        rcases List.mem_cons.mp member with rfl | member
        · exact ⟨free.1, free.2.1, validateEmailAddress_again stored, free.2.2⟩
        · obtain ⟨primary, unseen, rest⟩ := facts aliasEmail member
          exact ⟨primary, fun there => unseen (List.mem_cons_of_mem _ there), rest⟩
    · cases written

theorem validateGroups_eq_true {seen groups : List String}
    (passed : validateGroups documents tenant seen groups = true) {group : String}
    (member : group ∈ groups) :
    (documents.get (.mailGroup, group)).map (·.tenant) = some tenant := by
  induction groups generalizing seen with
  | nil => cases member
  | cons first rest ih =>
    rw [validateGroups, Bool.and_eq_true, Bool.and_eq_true, decide_eq_true_iff, decide_eq_true_iff]
      at passed
    rcases List.mem_cons.mp member with rfl | member
    · exact passed.1.2
    · exact ih passed.2 member

/-- **What a save writes.** -/
structure Written (platform : Platform) (s : State) (form : Form) (given : String) (isNew : Bool)
    (document : Document) (domain : MailDomain) : Prop where
  email : platform.validateEmailAddress given = some document.email
  found : domain ∈ s.domains
  under : domain.name = domainPart document.email
  domain_eq : document.domain = domain.name
  tenant_eq : document.tenant = domain.tenant
  cluster_eq : document.cluster = domain.cluster
  free : assertAddressAvailable s.documents document.email (excluding isNew document.key) = true
  groups : ∀ group ∈ document.groups,
    (s.documents.get (.mailGroup, group)).map (·.tenant) = some document.tenant
  aliases_once : document.aliases.Nodup
  aliases : ∀ aliasEmail ∈ document.aliases, aliasEmail ≠ document.email ∧
    platform.validateEmailAddress aliasEmail = some aliasEmail ∧
    (s.domains.get (domainPart aliasEmail)).map (·.tenant) = some document.tenant ∧
    assertAddressAvailable s.documents aliasEmail (some document.key) = true

theorem findDomain_eq_some {form : Form} {domain : MailDomain} {given : String}
    (stored : platform.validateEmailAddress given = some email)
    (found : findDomain platform s form (domainPart email) = some domain) :
    domain ∈ s.domains ∧ domain.name = domainPart email := by
  have normal : platform.normalizeDomain (domainPart email) = domainPart email :=
    normalizeDomain_of_stored (validateEmailAddress_domain stored).1
  rw [findDomain] at found
  split at found
  · rw [getTenantDomain, normal, Option.filter_eq_some_iff] at found
    exact Keyed.get_eq_some.mp found.1
  · exact Keyed.get_eq_some.mp found

theorem Form.validate_eq_some {form : Form} {given : String} {isNew : Bool} {document : Document}
    (written : form.validate platform s doctype name given isNew = some document) :
    document.key = (doctype, name) ∧ ∃ domain, Written platform s form given isNew document domain := by
  rw [Form.validate] at written
  obtain ⟨email, stored, written⟩ := Option.bind_eq_some_iff.mp written
  obtain ⟨domain, found, written⟩ := Option.bind_eq_some_iff.mp written
  split at written
  · rename_i checked
    obtain ⟨aliases, listed, rfl⟩ := Option.map_eq_some_iff.mp written
    rw [Bool.and_eq_true] at checked
    obtain ⟨here, under⟩ := findDomain_eq_some stored found
    obtain ⟨once, facts⟩ := validateAliases_eq_some listed
    exact ⟨rfl, domain, {
      email := stored
      found := here
      under := under
      domain_eq := rfl
      tenant_eq := rfl
      cluster_eq := rfl
      free := checked.1
      groups := fun group member => validateGroups_eq_true checked.2 member
      aliases_once := once
      aliases := fun aliasEmail member =>
        let ⟨primary, _, rest⟩ := facts aliasEmail member
        ⟨primary, rest⟩ }⟩
  · cases written

end Validation

/-! ### Documents -/

section Documents

variable {doctype : Doctype} {name email : String} {form : Form} {admitted : Bool}

theorem insertDocument_eq_some (taken : s.insertDocument platform doctype email form admitted = some s') :
    ∃ document domain left, document.email = document.name ∧
      Written platform s form document.name true document domain ∧
      s.documents.insert document = some left ∧ s' = { s with documents := left } := by
  obtain ⟨name, stored, rest⟩ := Option.bind_eq_some_iff.mp taken
  obtain ⟨document, valid, ends⟩ := Option.bind_eq_some_iff.mp rest
  obtain ⟨key, domain, written⟩ := Form.validate_eq_some valid
  obtain rfl : document.name = name := (Prod.mk.inj key).2
  split at ends
  · obtain ⟨left, done, rfl⟩ := Option.map_eq_some_iff.mp ends
    have again := written.email
    rw [validateEmailAddress_again stored] at again
    exact ⟨document, domain, left, (Option.some.inj again).symm, written, done, rfl⟩
  · cases ends

theorem saveDocument_eq_some (taken : s.saveDocument platform doctype name form = some s') :
    ∃ stored ∈ s.documents, ∃ document domain, stored.key = document.key ∧
      document.email = stored.email ∧ Written platform s form stored.email false document domain ∧
      s' = { s with documents := s.documents.put document } := by
  obtain ⟨stored, here, taken⟩ := Option.bind_eq_some_iff.mp taken
  obtain ⟨document, valid, taken⟩ := Option.bind_eq_some_iff.mp taken
  obtain ⟨key, domain, written⟩ := Form.validate_eq_some valid
  obtain ⟨here, storedKey⟩ := Keyed.get_eq_some.mp here
  split at taken
  · rename_i same
    obtain rfl := Option.some.inj taken
    exact ⟨stored, here, document, domain, storedKey.trans key.symm, same, written, rfl⟩
  · cases taken

theorem deleteDocument_eq_some (taken : s.deleteDocument doctype name = some s') :
    ∃ left : Documents, s' = { s with documents := left } ∧ ∀ document, document ∈ left ↔
      ∃ other ∈ s.documents, other.key ≠ (doctype, name) ∧ document =
        { other with groups := if doctype = .mailGroup then other.groups.filter (· ≠ name)
                               else other.groups } := by
  obtain ⟨stored, -, rfl⟩ := Option.map_eq_some_iff.mp taken
  refine ⟨_, rfl, fun document => ?_⟩
  by_cases group : doctype = .mailGroup
  · simp only [if_pos group]
    refine Iff.trans Keyed.mem_mapRows ?_
    constructor
    · rintro ⟨other, inside, rfl⟩
      obtain ⟨there, apart⟩ := Keyed.mem_erase.mp inside
      exact ⟨other, there, apart, rfl⟩
    · rintro ⟨other, there, apart, rfl⟩
      exact ⟨other, Keyed.mem_erase.mpr ⟨there, apart⟩, rfl⟩
  · simp only [if_neg group]
    rw [Keyed.mem_erase]
    constructor
    · rintro ⟨there, apart⟩
      exact ⟨document, there, apart, rfl⟩
    · rintro ⟨other, there, apart, rfl⟩
      exact ⟨there, apart⟩

end Documents

/-! ### Domains, tenants and pools -/

section Others

variable {name tenant domainName : String} {pool : Option String} {adopting admitted hasReports : Bool}

/-- The pool a domain or tenant names is one of the cluster's. -/
def PoolOf (s : State) (pool : Option String) (cluster : String) : Prop :=
  ∀ name ∈ pool, ∃ found ∈ s.pools, found.name = name ∧ found.cluster = cluster

theorem isPoolOf_eq_true {cluster : String} (checked : isPoolOf s pool cluster = true) :
    PoolOf s pool cluster := by
  rintro name rfl
  have found := decide_eq_true_iff.mp checked
  obtain ⟨row, here, same⟩ := Option.map_eq_some_iff.mp found
  obtain ⟨inside, named⟩ := Keyed.get_eq_some.mp here
  exact ⟨row, inside, named, same⟩

theorem insertDomain_eq_some
    (taken : s.insertDomain platform domainName tenant pool adopting admitted = some s') :
    ∃ (domain : MailDomain) (owner : SuiteTenant) (left : Keyed String MailDomain MailDomain.name),
      platform.validateDomainName domainName = some domain.name ∧
      platform.validateDomainName domain.name = some domain.domainName ∧
      owner ∈ s.tenants ∧ owner.name = domain.tenant ∧ owner.stalwartCluster = some domain.cluster ∧
      PoolOf s domain.egressPool domain.cluster ∧
      s.domains.insert domain = some left ∧ s' = { s with domains := left } := by
  obtain ⟨name, named, rest⟩ := Option.bind_eq_some_iff.mp taken
  obtain ⟨written, again, rest⟩ := Option.bind_eq_some_iff.mp rest
  obtain ⟨owner, found, rest⟩ := Option.bind_eq_some_iff.mp rest
  obtain ⟨cluster, placed, ends⟩ := Option.bind_eq_some_iff.mp rest
  obtain ⟨inside, same⟩ := Keyed.get_eq_some.mp found
  split at ends
  · rename_i checked
    obtain ⟨left, done, rfl⟩ := Option.map_eq_some_iff.mp ends
    rw [Bool.and_eq_true] at checked
    exact ⟨⟨name, written, tenant, cluster, pool⟩, owner, left, named, again, inside, same, placed,
      isPoolOf_eq_true checked.2, done, rfl⟩
  · cases ends

theorem saveDomain_eq_some (taken : s.saveDomain platform name pool = some s') :
    ∃ stored ∈ s.domains, ∃ owner ∈ s.tenants, ∃ cluster,
      owner.name = stored.tenant ∧ owner.stalwartCluster = some cluster ∧ PoolOf s pool cluster ∧
      s' = { s with domains := s.domains.put { stored with cluster := cluster, egressPool := pool } } := by
  obtain ⟨stored, here, rest⟩ := Option.bind_eq_some_iff.mp taken
  obtain ⟨written, again, rest⟩ := Option.bind_eq_some_iff.mp rest
  obtain ⟨owner, found, rest⟩ := Option.bind_eq_some_iff.mp rest
  obtain ⟨cluster, placed, ends⟩ := Option.bind_eq_some_iff.mp rest
  obtain ⟨inside, same⟩ := Keyed.get_eq_some.mp found
  split at ends
  · rename_i checked
    obtain rfl := Option.some.inj ends
    exact ⟨stored, (Keyed.get_eq_some.mp here).1, owner, inside, cluster, same, placed,
      isPoolOf_eq_true checked.2, rfl⟩
  · cases ends

theorem deleteDomain_eq_some (taken : s.deleteDomain name = some s') :
    ∃ stored ∈ s.domains, stored.name = name ∧
      (∀ document ∈ s.documents, document.domain ≠ name ∧
        ∀ aliasEmail ∈ document.aliases, isUnder stored.domainName aliasEmail = false) ∧
      s' = { s with domains := s.domains.erase name } := by
  obtain ⟨stored, here, ends⟩ := Option.bind_eq_some_iff.mp taken
  obtain ⟨inside, named⟩ := Keyed.get_eq_some.mp here
  split at ends
  · cases ends
  · rename_i unused
    obtain rfl := Option.some.inj ends
    rw [Bool.not_eq_true, Bool.or_eq_false_iff, List.any_eq_false, List.any_eq_false] at unused
    refine ⟨stored, inside, named, fun document there => ⟨?_, fun aliasEmail member => ?_⟩, rfl⟩
    · exact mt decide_eq_true (unused.1 document there)
    · have none := unused.2 document there
      rw [Bool.not_eq_true, List.any_eq_false] at none
      exact Bool.eq_false_iff.mpr (none aliasEmail member)

theorem validateStalwartCluster_eq_some {before : Option SuiteTenant} {given written : SuiteTenant}
    (valid : validateStalwartCluster s before given hasReports admitted = some written) :
    written.name = given.name ∧
      (∀ stored ∈ before, stored.stalwartCluster ≠ written.stalwartCluster →
        hasMailData s given.name hasReports = false) ∧
      ∀ pool ∈ written.egressPool, ∃ cluster, written.stalwartCluster = some cluster ∧
        PoolOf s (some pool) cluster := by
  rw [validateStalwartCluster] at valid
  split at valid
  · cases valid
  · rename_i unmoved
    have kept : ∀ stored ∈ before, stored.stalwartCluster ≠ given.stalwartCluster →
        hasMailData s given.name hasReports = false := by
      rintro stored rfl moved
      rw [Bool.and_eq_true, not_and, Bool.not_eq_true] at unmoved
      exact unmoved (decide_eq_true moved)
    split at valid
    · rename_i cleared
      obtain rfl := Option.some.inj valid
      exact ⟨rfl, kept, nofun⟩
    · rename_i cluster placed
      split at valid
      · cases valid
      · split at valid
        · rename_i checked
          obtain rfl := Option.some.inj valid
          refine ⟨rfl, kept, fun pool named => ⟨cluster, placed, ?_⟩⟩
          rw [← named]
          exact isPoolOf_eq_true checked
        · cases valid

theorem insertTenant_eq_some {given : SuiteTenant} (taken : s.insertTenant given admitted = some s') :
    ∃ written left, s.tenants.insert written = some left ∧
      (∀ pool ∈ written.egressPool, ∃ cluster, written.stalwartCluster = some cluster ∧
        PoolOf s (some pool) cluster) ∧ s' = { s with tenants := left } := by
  obtain ⟨written, valid, ends⟩ := Option.bind_eq_some_iff.mp taken
  obtain ⟨left, done, rfl⟩ := Option.map_eq_some_iff.mp ends
  exact ⟨written, left, done, (validateStalwartCluster_eq_some valid).2.2, rfl⟩

theorem saveTenant_eq_some {given : SuiteTenant}
    (taken : s.saveTenant given hasReports admitted = some s') :
    ∃ stored ∈ s.tenants, ∃ written : SuiteTenant, stored.name = written.name ∧
      (stored.stalwartCluster ≠ written.stalwartCluster → ∀ domain ∈ s.domains,
        domain.tenant ≠ written.name) ∧
      (∀ pool ∈ written.egressPool, ∃ cluster, written.stalwartCluster = some cluster ∧
        PoolOf s (some pool) cluster) ∧ s' = { s with tenants := s.tenants.put written } := by
  obtain ⟨stored, here, ends⟩ := Option.bind_eq_some_iff.mp taken
  obtain ⟨written, valid, rfl⟩ := Option.map_eq_some_iff.mp ends
  obtain ⟨named, kept, pools⟩ := validateStalwartCluster_eq_some valid
  obtain ⟨inside, same⟩ := Keyed.get_eq_some.mp here
  refine ⟨stored, inside, written, same.trans named.symm, fun moved domain there of => ?_, pools, rfl⟩
  have none := kept stored rfl moved
  rw [hasMailData, Bool.or_eq_false_iff, Bool.or_eq_false_iff, List.any_eq_false, List.any_eq_false] at none
  exact none.1.2 domain there (decide_eq_true (of.trans named))

theorem deleteTenant_eq_some (taken : s.deleteTenant name = some s') :
    (∀ domain ∈ s.domains, domain.tenant ≠ name) ∧ s' = { s with tenants := s.tenants.erase name } := by
  rw [State.deleteTenant] at taken
  split at taken
  · cases taken
  · rename_i unused
    obtain rfl := Option.some.inj taken
    rw [Bool.not_eq_true, List.any_eq_false] at unused
    exact ⟨fun domain there => mt decide_eq_true (unused domain there), rfl⟩

theorem insertPool_eq_some {pool : EgressIPPool} (taken : s.insertPool pool = some s') :
    ∃ left, s.pools.insert pool = some left ∧ s' = { s with pools := left } := by
  obtain ⟨left, done, rfl⟩ := Option.map_eq_some_iff.mp taken
  exact ⟨left, done, rfl⟩

theorem deletePool_eq_some (taken : s.deletePool name = some s') :
    (∀ tenant ∈ s.tenants, tenant.egressPool ≠ some name) ∧
      (∀ domain ∈ s.domains, domain.egressPool ≠ some name) ∧
      s' = { s with pools := s.pools.erase name } := by
  rw [State.deletePool] at taken
  split at taken
  · cases taken
  · rename_i unused
    obtain rfl := Option.some.inj taken
    rw [Bool.not_eq_true, Bool.or_eq_false_iff, List.any_eq_false, List.any_eq_false] at unused
    exact ⟨fun tenant there => mt decide_eq_true (unused.1 tenant there),
      fun domain there => mt decide_eq_true (unused.2 domain there), rfl⟩

end Others

/-! ### A small directory -/

/-- A tenant with a domain, a group, an account in it and a list; the account's alias goes to the list. -/
def smallRun : List Action :=
  [.insertPool ⟨"p", "c"⟩, .insertTenant ⟨"t", some "c", some "p"⟩ true,
    .insertDomain "A.io" "t" (some "p") false true,
    .insertDocument .mailGroup "all@a.io" ⟨none, [], []⟩ true,
    .insertDocument .mailAccount "Ann@a.io" ⟨none, ["Info@a.io"], ["all@a.io"]⟩ true,
    .saveDocument .mailAccount "ann@a.io" ⟨some "t", ["sales@a.io"], ["all@a.io"]⟩,
    .insertDocument .mailingList "team@a.io" ⟨some "t", ["info@a.io"], []⟩ true]

/-- The documents it leaves. -/
def smallDocuments : List Document :=
  [⟨.mailingList, "team@a.io", "team@a.io", "a.io", "t", "c", ["info@a.io"], []⟩,
    ⟨.mailAccount, "ann@a.io", "ann@a.io", "a.io", "t", "c", ["sales@a.io"], ["all@a.io"]⟩,
    ⟨.mailGroup, "all@a.io", "all@a.io", "a.io", "t", "c", [], []⟩]

theorem smallRun_ends : ∃ s, Reaches (step asciiPlatform) anyStep State.initial s ∧
    s.documents.rows = smallDocuments ∧ s.domains.rows = [⟨"a.io", "a.io", "t", "c", some "p"⟩] := by
  have ends : (run (step asciiPlatform) State.initial smallRun).map
      (fun s => (s.documents.rows, s.domains.rows)) =
        some (smallDocuments, [⟨"a.io", "a.io", "t", "c", some "p"⟩]) := by decide +kernel
  obtain ⟨s, ran, same⟩ := Option.map_eq_some_iff.mp ends
  obtain ⟨documents, domains⟩ := Prod.mk.inj same
  exact ⟨s, reaches_of_run (runMeets_of_forall fun _ _ _ => trivial) ran, documents, domains⟩

end SuiteCloud.Mail.Directory
