/-
**The directory stays inside its tenant and cluster.**

Documents copy their tenant and cluster when they are saved and are never looked at again when a tenant, a
domain or another document changes. What keeps the copies right is that those changes are refused while
anything rests on them.

### What is proved

* `Owned` — the invariant: documents and their domain, domains and their tenant, aliases and their domain,
  accounts and their groups, and the pools.
* `Owned.write`, `Owned.deleteDocument`, `Owned.insertDomain`, … — each operation keeps it.
* `directory_stays_inside` — **in every run** each document has its domain's tenant and cluster, which is
  its tenant's; its aliases are on domains of its tenant, its groups are its tenant's, and the pools named
  by tenants and domains belong to their cluster.
-/

import SuiteCloud.Mail.Directory.Steps

namespace SuiteCloud.Mail.Directory

open SuiteCloud.Library SuiteCloud.Mail.Tenancy

variable {platform : Platform} {s s' : State}

/-- **What holds in every run.** -/
structure Owned (platform : Platform) (s : State) : Prop where
  document : ∀ document ∈ s.documents, document.domain = domainPart document.email ∧
    ∃ domain ∈ s.domains, domain.name = document.domain ∧ document.tenant = domain.tenant ∧
      document.cluster = domain.cluster
  domain : ∀ domain ∈ s.domains, ∃ tenant ∈ s.tenants, tenant.name = domain.tenant ∧
    tenant.stalwartCluster = some domain.cluster
  aliases : ∀ document ∈ s.documents, ∀ aliasEmail ∈ document.aliases,
    platform.validateEmailAddress aliasEmail = some aliasEmail ∧
      ∃ domain ∈ s.domains, domain.name = domainPart aliasEmail ∧ domain.tenant = document.tenant
  groups : ∀ document ∈ s.documents, ∀ group ∈ document.groups, ∃ found ∈ s.documents,
    found.key = (.mailGroup, group) ∧ found.tenant = document.tenant
  domainPool : ∀ domain ∈ s.domains, PoolOf s domain.egressPool domain.cluster
  tenantPool : ∀ tenant ∈ s.tenants, ∀ pool ∈ tenant.egressPool, ∃ cluster,
    tenant.stalwartCluster = some cluster ∧ PoolOf s (some pool) cluster
  /-- The name of a domain and its `domain_name` differ only where the name has a line break. -/
  domainName : ∀ domain ∈ s.domains, '\n' ∉ domain.name.toList → domain.domainName = domain.name

/-! ### Documents -/

section Documents

variable {left : Documents}

theorem domain_of_map {name tenant : String}
    (found : (s.domains.get name).map (·.tenant) = some tenant) :
    ∃ domain ∈ s.domains, domain.name = name ∧ domain.tenant = tenant := by
  obtain ⟨domain, here, same⟩ := Option.map_eq_some_iff.mp found
  obtain ⟨inside, named⟩ := Keyed.get_eq_some.mp here
  exact ⟨domain, inside, named, same⟩

/-- **A document written** in the place of the one of its key, whose tenant it keeps. -/
theorem Owned.write (owned : Owned platform s) {form : Form} {given : String} {isNew : Bool}
    {document : Document} {domain : MailDomain}
    (written : Written platform s form given isNew document domain)
    (same : ∀ other ∈ s.documents, other.key = document.key → other.tenant = document.tenant)
    (after : ∀ other, other ∈ left ↔ other = document ∨ (other ∈ s.documents ∧ other.key ≠ document.key)) :
    Owned platform { s with documents := left } where
  document := by
    intro one here
    rcases (after one).mp here with rfl | ⟨there, -⟩
    · exact ⟨written.domain_eq.trans written.under, domain, written.found, written.domain_eq.symm,
        written.tenant_eq, written.cluster_eq⟩
    · exact owned.document one there
  domain := owned.domain
  aliases := by
    intro one here aliasEmail member
    rcases (after one).mp here with rfl | ⟨there, -⟩
    · obtain ⟨-, stored, found, -⟩ := written.aliases aliasEmail member
      exact ⟨stored, domain_of_map found⟩
    · exact owned.aliases one there aliasEmail member
  groups := by
    have kept : ∀ other ∈ s.documents, ∃ found ∈ left, found.key = other.key ∧
        found.tenant = other.tenant := by
      intro other there
      by_cases key : other.key = document.key
      · exact ⟨document, (after document).mpr (Or.inl rfl), key.symm, (same other there key).symm⟩
      · exact ⟨other, (after other).mpr (Or.inr ⟨there, key⟩), rfl, rfl⟩
    intro one here group member
    have before : ∃ found ∈ s.documents, found.key = (.mailGroup, group) ∧ found.tenant = one.tenant := by
      rcases (after one).mp here with rfl | ⟨there, -⟩
      · obtain ⟨found, here, same⟩ := Option.map_eq_some_iff.mp (written.groups group member)
        obtain ⟨inside, key⟩ := Keyed.get_eq_some.mp here
        exact ⟨found, inside, key, same⟩
      · exact owned.groups one there group member
    obtain ⟨found, inside, key, tenant⟩ := before
    obtain ⟨other, there, key', tenant'⟩ := kept found inside
    exact ⟨other, there, key'.trans key, tenant'.trans tenant⟩
  domainPool := owned.domainPool
  tenantPool := owned.tenantPool
  domainName := owned.domainName

theorem Owned.insertDocument (owned : Owned platform s) {doctype : Doctype} {email : String} {form : Form}
    {admitted : Bool} (taken : s.insertDocument platform doctype email form admitted = some s') :
    Owned platform s' := by
  obtain ⟨document, domain, left, -, written, done, rfl⟩ := insertDocument_eq_some taken
  obtain ⟨fresh, after⟩ := Keyed.mem_insert done
  refine owned.write written (fun other there key => absurd key (fresh other there)) fun other => ?_
  rw [after]
  exact or_congr_right (and_iff_left_of_imp (fresh other)).symm

theorem Owned.saveDocument (owned : Owned platform s) {doctype : Doctype} {name : String} {form : Form}
    (taken : s.saveDocument platform doctype name form = some s') : Owned platform s' := by
  obtain ⟨stored, here, document, domain, keys, email, written, rfl⟩ := saveDocument_eq_some taken
  refine owned.write written ?_ fun other => Keyed.mem_put here keys
  intro other there key
  obtain rfl := Keyed.eq_of_key there here (key.trans keys.symm)
  obtain ⟨under, before, inside, named, tenant, -⟩ := owned.document other there
  -- Its address is set only once, so its domain is the one it had.
  have same : before = domain := by
    refine Keyed.eq_of_key inside written.found ?_
    show before.name = domain.name
    rw [named, under, written.under, email]
  rw [tenant, written.tenant_eq, same]

theorem Owned.deleteDocument (owned : Owned platform s) {doctype : Doctype} {name : String}
    (taken : s.deleteDocument doctype name = some s') : Owned platform s' := by
  obtain ⟨left, rfl, after⟩ := deleteDocument_eq_some taken
  refine ⟨?_, owned.domain, ?_, ?_, owned.domainPool, owned.tenantPool, owned.domainName⟩
  · intro one here
    obtain ⟨other, there, -, rfl⟩ := (after one).mp here
    exact owned.document other there
  · intro one here
    obtain ⟨other, there, -, rfl⟩ := (after one).mp here
    exact owned.aliases other there
  · intro one here group member
    obtain ⟨other, there, -, rfl⟩ := (after one).mp here
    have stays : group ∈ other.groups ∧ (Doctype.mailGroup, group) ≠ (doctype, name) := by
      by_cases isGroup : doctype = .mailGroup
      · simp only [if_pos isGroup, List.mem_filter, decide_eq_true_iff] at member
        exact ⟨member.1, fun same => member.2 (Prod.mk.inj same).2⟩
      · simp only [if_neg isGroup] at member
        exact ⟨member, fun same => isGroup (Prod.mk.inj same).1.symm⟩
    obtain ⟨found, inside, key, tenant⟩ := owned.groups other there group stays.1
    exact ⟨_, (after _).mpr ⟨found, inside, key.symm ▸ stays.2, rfl⟩, key, tenant⟩

end Documents

/-! ### Domains -/

section Domains

variable {left : Keyed String MailDomain MailDomain.name}

/-- **Domains written** where every one that something rests on keeps its name, tenant and cluster. -/
theorem Owned.domains (owned : Owned platform s)
    (kept : ∀ domain ∈ s.domains, (∃ document ∈ s.documents, document.domain = domain.name ∨
        ∃ aliasEmail ∈ document.aliases, domainPart aliasEmail = domain.name) →
      ∃ other ∈ left, other.name = domain.name ∧ other.tenant = domain.tenant ∧
        other.cluster = domain.cluster)
    (placed : ∀ domain ∈ left, ∃ tenant ∈ s.tenants, tenant.name = domain.tenant ∧
      tenant.stalwartCluster = some domain.cluster)
    (pooled : ∀ domain ∈ left, PoolOf s domain.egressPool domain.cluster)
    (named : ∀ domain ∈ left, '\n' ∉ domain.name.toList → domain.domainName = domain.name) :
    Owned platform { s with domains := left } where
  document := by
    intro document here
    obtain ⟨under, domain, inside, of, tenant, cluster⟩ := owned.document document here
    obtain ⟨other, there, name', tenant', cluster'⟩ :=
      kept domain inside ⟨document, here, Or.inl of.symm⟩
    exact ⟨under, other, there, name'.trans of, tenant.trans tenant'.symm, cluster.trans cluster'.symm⟩
  domain := placed
  aliases := by
    intro document here aliasEmail member
    obtain ⟨stored, domain, inside, under, tenant⟩ := owned.aliases document here aliasEmail member
    obtain ⟨other, there, name', tenant', -⟩ :=
      kept domain inside ⟨document, here, Or.inr ⟨aliasEmail, member, under.symm⟩⟩
    exact ⟨stored, other, there, name'.trans under, tenant'.trans tenant⟩
  groups := owned.groups
  domainPool := pooled
  tenantPool := owned.tenantPool
  domainName := named

theorem Owned.insertDomain (owned : Owned platform s) {domainName tenant : String} {pool : Option String}
    {adopting admitted : Bool}
    (taken : s.insertDomain platform domainName tenant pool adopting admitted = some s') :
    Owned platform s' := by
  obtain ⟨domain, owner, left, named, again, inside, same, cluster, pooled, done, rfl⟩ :=
    insertDomain_eq_some taken
  obtain ⟨-, after⟩ := Keyed.mem_insert done
  refine owned.domains ?_ ?_ ?_ ?_
  · intro other there _
    exact ⟨other, (after other).mpr (Or.inr there), rfl, rfl, rfl⟩
  · intro other here
    rcases (after other).mp here with rfl | there
    · exact ⟨owner, inside, same, cluster⟩
    · exact owned.domain other there
  · intro other here
    rcases (after other).mp here with rfl | there
    · exact pooled
    · exact owned.domainPool other there
  · intro other here line
    rcases (after other).mp here with rfl | there
    · rw [validateDomainName_again named line] at again
      exact (Option.some.inj again).symm
    · exact owned.domainName other there line

theorem Owned.saveDomain (owned : Owned platform s) {name : String} {pool : Option String}
    (taken : s.saveDomain platform name pool = some s') : Owned platform s' := by
  obtain ⟨stored, here, owner, inside, cluster, of, placed, pooled, rfl⟩ := saveDomain_eq_some taken
  -- The tenant's cluster is the one the domain has.
  have same : cluster = stored.cluster := by
    obtain ⟨tenant, there, named, had⟩ := owned.domain stored here
    obtain rfl := Keyed.eq_of_key there inside (named.trans of.symm)
    exact Option.some.inj (placed.symm.trans had)
  subst same
  have after : ∀ other, other ∈ s.domains.put { stored with egressPool := pool } ↔
      other = { stored with egressPool := pool } ∨ (other ∈ s.domains ∧ other.name ≠ stored.name) :=
    fun other => Keyed.mem_put here rfl
  refine owned.domains ?_ ?_ ?_ ?_
  · intro other there _
    by_cases key : other.name = stored.name
    · obtain rfl := Keyed.eq_of_key there here key
      exact ⟨_, (after _).mpr (Or.inl rfl), rfl, rfl, rfl⟩
    · exact ⟨other, (after other).mpr (Or.inr ⟨there, key⟩), rfl, rfl, rfl⟩
  · intro other there
    rcases (after other).mp there with rfl | ⟨there, -⟩
    · exact owned.domain stored here
    · exact owned.domain other there
  · intro other there
    rcases (after other).mp there with rfl | ⟨there, -⟩
    · exact pooled
    · exact owned.domainPool other there
  · intro other there line
    rcases (after other).mp there with rfl | ⟨there, -⟩
    · exact owned.domainName stored here line
    · exact owned.domainName other there line

theorem isUnder_domainPart {email : String}
    (stored : platform.validateEmailAddress email = some email) : isUnder (domainPart email) email = true := by
  obtain ⟨name, whole, free, -⟩ := validateEmailAddress_eq_some stored
  generalize localPart (platform.lower (strip email)) = before at whole free
  rw [isUnder, List.isSuffixOf_iff_suffix]
  have under : domainPart email = name := by rw [whole, (parts_append free name).2]
  have chars : email.toList = before.toList ++ ("@" ++ name).toList := by
    rw [whole, String.append_assoc, String.toList_append]
  rw [under, chars]
  exact List.suffix_append _ _

theorem Owned.deleteDomain (owned : Owned platform s) {name : String}
    (taken : s.deleteDomain name = some s') : Owned platform s' := by
  obtain ⟨stored, here, rfl, unused, rfl⟩ := deleteDomain_eq_some taken
  refine owned.domains ?_ ?_ ?_ ?_
  · rintro other there ⟨document, inside, used⟩
    refine ⟨other, Keyed.mem_erase.mpr ⟨there, ?_⟩, rfl, rfl, rfl⟩
    intro key
    obtain rfl := Keyed.eq_of_key there here key
    obtain ⟨elsewhere, free⟩ := unused document inside
    rcases used with used | ⟨aliasEmail, member, under⟩
    · exact elsewhere used
    · -- An alias' domain has no line break, so that `domain_name` is the name it is found by.
      obtain ⟨form, -⟩ := owned.aliases document inside aliasEmail member
      have line := (validateEmailAddress_domain form).2
      rw [under] at line
      have under' := isUnder_domainPart form
      rw [under, ← owned.domainName other there line, free aliasEmail member] at under'
      cases under'
  · exact fun other there => owned.domain other (Keyed.mem_erase.mp there).1
  · exact fun other there => owned.domainPool other (Keyed.mem_erase.mp there).1
  · exact fun other there => owned.domainName other (Keyed.mem_erase.mp there).1

end Domains

/-! ### Tenants and pools -/

section Tenants

theorem Owned.tenants (owned : Owned platform s) {left : Keyed String SuiteTenant SuiteTenant.name}
    (kept : ∀ domain ∈ s.domains, ∃ tenant ∈ left, tenant.name = domain.tenant ∧
      tenant.stalwartCluster = some domain.cluster)
    (pooled : ∀ tenant ∈ left, ∀ pool ∈ tenant.egressPool, ∃ cluster,
      tenant.stalwartCluster = some cluster ∧ PoolOf s (some pool) cluster) :
    Owned platform { s with tenants := left } :=
  ⟨owned.document, kept, owned.aliases, owned.groups, owned.domainPool, pooled, owned.domainName⟩

theorem Owned.insertTenant (owned : Owned platform s) {given : SuiteTenant} {admitted : Bool}
    (taken : s.insertTenant given admitted = some s') : Owned platform s' := by
  obtain ⟨written, left, done, pooled, rfl⟩ := insertTenant_eq_some taken
  obtain ⟨-, after⟩ := Keyed.mem_insert done
  refine owned.tenants ?_ ?_
  · intro domain here
    obtain ⟨tenant, there, facts⟩ := owned.domain domain here
    exact ⟨tenant, (after tenant).mpr (Or.inr there), facts⟩
  · intro tenant here
    rcases (after tenant).mp here with rfl | there
    · exact pooled
    · exact owned.tenantPool tenant there

theorem Owned.saveTenant (owned : Owned platform s) {given : SuiteTenant} {hasReports admitted : Bool}
    (taken : s.saveTenant given hasReports admitted = some s') : Owned platform s' := by
  obtain ⟨stored, here, written, named, unmoved, pooled, rfl⟩ := saveTenant_eq_some taken
  have after : ∀ other, other ∈ s.tenants.put written ↔
      other = written ∨ (other ∈ s.tenants ∧ other.name ≠ written.name) :=
    fun other => Keyed.mem_put here named
  refine owned.tenants ?_ ?_
  · intro domain there
    obtain ⟨tenant, inside, of, placed⟩ := owned.domain domain there
    by_cases key : tenant.name = written.name
    · obtain rfl := Keyed.eq_of_key inside here (key.trans named.symm)
      refine ⟨written, (after written).mpr (Or.inl rfl), key.symm.trans of, ?_⟩
      by_contra moved
      rw [← placed] at moved
      exact unmoved (Ne.symm moved) domain there (of.symm.trans key)
    · exact ⟨tenant, (after tenant).mpr (Or.inr ⟨inside, key⟩), of, placed⟩
  · intro tenant there
    rcases (after tenant).mp there with rfl | ⟨there, -⟩
    · exact pooled
    · exact owned.tenantPool tenant there

theorem Owned.deleteTenant (owned : Owned platform s) {name : String}
    (taken : s.deleteTenant name = some s') : Owned platform s' := by
  obtain ⟨unused, rfl⟩ := deleteTenant_eq_some taken
  refine owned.tenants ?_ ?_
  · intro domain here
    obtain ⟨tenant, there, of, placed⟩ := owned.domain domain here
    exact ⟨tenant, Keyed.mem_erase.mpr ⟨there, fun key => unused domain here (of.symm.trans key)⟩, of,
      placed⟩
  · exact fun tenant there => owned.tenantPool tenant (Keyed.mem_erase.mp there).1

/-- Pools that are named stay. -/
theorem Owned.pools (owned : Owned platform s) {left : Keyed String EgressIPPool EgressIPPool.name}
    (kept : ∀ pool ∈ s.pools, (∃ tenant ∈ s.tenants, tenant.egressPool = some pool.name) ∨
      (∃ domain ∈ s.domains, domain.egressPool = some pool.name) → pool ∈ left) :
    Owned platform { s with pools := left } where
  document := owned.document
  domain := owned.domain
  aliases := owned.aliases
  groups := owned.groups
  domainPool := by
    intro domain here name named
    obtain ⟨pool, there, rfl, cluster⟩ := owned.domainPool domain here name named
    exact ⟨pool, kept pool there (Or.inr ⟨domain, here, named⟩), rfl, cluster⟩
  tenantPool := by
    intro tenant here name named
    obtain ⟨cluster, placed, of⟩ := owned.tenantPool tenant here name named
    refine ⟨cluster, placed, ?_⟩
    intro other same
    obtain rfl := Option.some.inj same
    obtain ⟨pool, there, rfl, belongs⟩ := of _ rfl
    exact ⟨pool, kept pool there (Or.inl ⟨tenant, here, named⟩), rfl, belongs⟩
  domainName := owned.domainName

theorem Owned.insertPool (owned : Owned platform s) {pool : EgressIPPool}
    (taken : s.insertPool pool = some s') : Owned platform s' := by
  obtain ⟨left, done, rfl⟩ := insertPool_eq_some taken
  obtain ⟨-, after⟩ := Keyed.mem_insert done
  exact owned.pools fun other there _ => (after other).mpr (Or.inr there)

theorem Owned.deletePool (owned : Owned platform s) {name : String}
    (taken : s.deletePool name = some s') : Owned platform s' := by
  obtain ⟨tenants, domains, rfl⟩ := deletePool_eq_some taken
  refine owned.pools fun other there used => Keyed.mem_erase.mpr ⟨there, ?_⟩
  rintro rfl
  rcases used with ⟨tenant, here, named⟩ | ⟨domain, here, named⟩
  · exact tenants tenant here named
  · exact domains domain here named

end Tenants

/-! ### Runs -/

/-- **Every step keeps the directory inside its tenants.** -/
theorem Owned.step (owned : Owned platform s) {action : Action}
    (taken : Directory.step platform s action = some s') : Owned platform s' := by
  cases action with
  | insertDocument doctype email form admitted => exact owned.insertDocument taken
  | saveDocument doctype name form => exact owned.saveDocument taken
  | deleteDocument doctype name => exact owned.deleteDocument taken
  | insertDomain domainName tenant pool adopting admitted => exact owned.insertDomain taken
  | saveDomain name pool => exact owned.saveDomain taken
  | deleteDomain name => exact owned.deleteDomain taken
  | insertTenant tenant admitted => exact owned.insertTenant taken
  | saveTenant tenant hasReports admitted => exact owned.saveTenant taken
  | deleteTenant name => exact owned.deleteTenant taken
  | insertPool pool => exact owned.insertPool taken
  | deletePool name => exact owned.deletePool taken

theorem owned_initial : Owned platform State.initial := by
  refine ⟨?_, ?_, ?_, ?_, ?_, ?_, ?_⟩ <;> exact fun _ here => absurd here List.not_mem_nil

/-- **The directory stays inside its tenant and cluster.** -/
theorem directory_stays_inside (reached : Reaches (Directory.step platform) anyStep State.initial s) :
    (∀ document ∈ s.documents, ∃ domain ∈ s.domains, domain.name = document.domain ∧
      document.tenant = domain.tenant ∧ document.cluster = domain.cluster ∧
      ∃ tenant ∈ s.tenants, tenant.name = document.tenant ∧
        tenant.stalwartCluster = some document.cluster) ∧
    (∀ document ∈ s.documents, ∀ aliasEmail ∈ document.aliases, ∃ domain ∈ s.domains,
      domain.name = domainPart aliasEmail ∧ domain.tenant = document.tenant) ∧
    (∀ document ∈ s.documents, ∀ group ∈ document.groups, ∃ found ∈ s.documents,
      found.key = (.mailGroup, group) ∧ found.tenant = document.tenant) ∧
    (∀ domain ∈ s.domains, (∃ tenant ∈ s.tenants, tenant.name = domain.tenant ∧
        tenant.stalwartCluster = some domain.cluster) ∧
      ∀ pool ∈ domain.egressPool, ∃ found ∈ s.pools, found.name = pool ∧ found.cluster = domain.cluster) ∧
    ∀ tenant ∈ s.tenants, ∀ pool ∈ tenant.egressPool, ∃ found ∈ s.pools, found.name = pool ∧
      tenant.stalwartCluster = some found.cluster := by
  have owned : Owned platform s :=
    reached.invariant (Owned platform) owned_initial fun owned _ taken => owned.step taken
  refine ⟨?_, ?_, owned.groups, fun domain here => ⟨owned.domain domain here, owned.domainPool domain here⟩, ?_⟩
  · intro document here
    obtain ⟨-, domain, there, named, tenant, cluster⟩ := owned.document document here
    refine ⟨domain, there, named, tenant, cluster, ?_⟩
    rw [tenant, cluster]
    exact owned.domain domain there
  · exact fun document here aliasEmail member => (owned.aliases document here aliasEmail member).2
  · intro tenant here pool named
    obtain ⟨cluster, placed, of⟩ := owned.tenantPool tenant here pool named
    obtain ⟨found, there, name, rfl⟩ := of pool rfl
    exact ⟨found, there, name, placed⟩

/-- The account of the small directory is on the cluster of its tenant. -/
theorem directory_stays_inside_small :
    ∃ s, Reaches (Directory.step asciiPlatform) anyStep State.initial s ∧
      (⟨.mailAccount, "ann@a.io", "ann@a.io", "a.io", "t", "c", ["sales@a.io"], ["all@a.io"]⟩ : Document) ∈
        s.documents ∧
      ∃ tenant ∈ s.tenants, tenant.name = "t" ∧ tenant.stalwartCluster = some "c" := by
  obtain ⟨s, reached, documents, -⟩ := smallRun_ends
  have here : (⟨.mailAccount, "ann@a.io", "ann@a.io", "a.io", "t", "c", ["sales@a.io"], ["all@a.io"]⟩ :
      Document) ∈ s.documents := by
    show _ ∈ s.documents.rows
    rw [documents]
    exact List.mem_cons_of_mem _ List.mem_cons_self
  obtain ⟨domain, -, -, -, -, tenant⟩ := (directory_stays_inside reached).1 _ here
  exact ⟨s, reached, here, tenant⟩

end SuiteCloud.Mail.Directory
