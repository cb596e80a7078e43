/-
**What an egress pool wants in DNS.**

`pool_records`, and the syncs that make a pool's rows exactly that: `sync_pool_records`, and the loops
over the pools of a gateway.

### What is proved

* `poolRecords_key` — what `pool_records` wants: the pool's own host for each serving gateway, and the
  EHLO names.
* `EgressSynced` — the invariant: every pool's rows are what it wants now.
* `syncPools_resynced` — **a sync makes it so for the pools it is of**, and leaves the rows of the others.
-/

import SuiteCloud.Mail.Cluster.Records.Model

namespace SuiteCloud.Mail.Cluster.Records

open SuiteCloud.Library SuiteCloud.Dns

variable {site : Site} {cluster : StalwartCluster} {s s' : State}

/-! ### Hosts -/

/-- The pool's own host in the zone. -/
def EgressIPPool.ownHost (cluster : StalwartCluster) (pool : EgressIPPool) : String :=
  pool.poolName.text ++ ".out" ++ "." ++ cluster.host

def PoolAddress.ehloHost (cluster : StalwartCluster) (row : PoolAddress) : String :=
  row.ehlo.text ++ "." ++ cluster.host

theorem isSpace_of_plain {c : Char} (plain : ('a' ≤ c ∧ c ≤ 'z') ∨ ('0' ≤ c ∧ c ≤ '9')) :
    isSpace c = false := by
  have range : (97 ≤ c.toNat ∧ c.toNat ≤ 122) ∨ (48 ≤ c.toNat ∧ c.toNat ≤ 57) := plain
  simp only [isSpace, List.mem_cons, List.not_mem_nil, or_false, Bool.or_eq_false_iff,
    decide_eq_false_iff_not]
  omega

/-! ### What a pool wants -/

/-- The gateway is there, serves and has the address. -/
def Serves (gateway : Option EgressGateway) (ip : Ip) : Prop :=
  ∃ found, gateway = some found ∧ found.status = .active ∧ found.ipv4Address = ip

theorem mem_gatewayNames {pool : EgressIPPool} {name : String} :
    name ∈ pool.gatewayNames ↔ pool.hosts name = true := by
  rw [EgressIPPool.gatewayNames, List.mem_eraseDups, List.mem_mergeSort, EgressIPPool.hosts,
    List.any_eq_true, List.mem_map]
  simp only [decide_eq_true_iff]

variable (site cluster) in
/-- Where the pool's own records are. -/
def EgressIPPool.ownPlace (pool : EgressIPPool) : Place :=
  ⟨cluster.dnsZone, site.lower (pool.ownHost cluster), .a⟩

variable (site cluster) in
def PoolAddress.ehloKey (row : PoolAddress) : Place × String :=
  (⟨cluster.dnsZone, site.lower (row.ehloHost cluster), if row.ipAddress.isIpv6 then .aaaa else .a⟩,
    row.ipAddress.text)

variable (site cluster) in
/-- **What the pool wants**: its own host for each serving gateway, and its EHLO names. -/
def PoolKey (s : State) (pool : EgressIPPool) (key : Place × String) : Prop :=
  (∃ name ip, pool.hosts name = true ∧ Serves (s.gateways name) ip ∧
    key = (pool.ownPlace site cluster, ip.text)) ∨
  ∃ row ∈ pool.addresses, key = row.ehloKey site cluster

/-- A pool's wanted rows are stored as they are looked up. -/
structure Plain (row : Desired) : Prop where
  normal : row.Normal
  category : row.category = .egress

theorem addressRecords_ipv4 {label : String} {ip : Ip} {category : Category} :
    addressRecords cluster (label ++ "." ++ cluster.defaultDomain) (some ip) none category =
      some [{ place := ⟨cluster.dnsZone, label ++ "." ++ cluster.host, .a⟩, value := ip.text,
              category := category }] := by
  simp only [addressRecords, relativeHost_under]
  rfl

theorem addressRecords_ipv6 {label : String} {ip : Ip} {category : Category} :
    addressRecords cluster (label ++ "." ++ cluster.defaultDomain) none (some ip) category =
      some [{ place := ⟨cluster.dnsZone, label ++ "." ++ cluster.host, .aaaa⟩, value := ip.text,
              category := category }] := by
  simp only [addressRecords, relativeHost_under]
  rfl

theorem plain_row {label : String} {ip : Ip} (first : ∀ c ∈ label.toList.head?, isSpace c = false)
    (recordType : RecordType) :
    Plain { place := ⟨cluster.dnsZone, label ++ "." ++ cluster.host, recordType⟩
            value := ip.text
            category := .egress } :=
  ⟨⟨cluster.zoned, strip_under label first, ip.trimmed⟩, rfl⟩

theorem poolName_first (pool : EgressIPPool) :
    ∀ c ∈ (pool.poolName.text ++ ".out").toList.head?, isSpace c = false := by
  intro c member
  rw [String.toList_append] at member
  cases chars : pool.poolName.text.toList with
  | nil =>
    rw [chars] at member
    obtain rfl := Option.some.inj member
    rfl
  | cons head rest =>
    rw [chars] at member
    obtain rfl := Option.some.inj member
    exact isSpace_of_plain (pool.poolName.plain _ (by rw [chars]; exact List.mem_cons_self))

theorem mem_serving {pool : EgressIPPool} {serving : List Desired} {row : Desired}
    (built : collect (fun name => do
      let gateway ← s.gateways name
      if gateway.status ≠ .active then return []
      else addressRecords cluster (pool.hostname cluster) (some gateway.ipv4Address) none .egress)
      pool.gatewayNames = some serving) :
    row ∈ serving ↔ ∃ name ip, pool.hosts name = true ∧ Serves (s.gateways name) ip ∧
      row = { place := ⟨cluster.dnsZone, pool.ownHost cluster, .a⟩, value := ip.text,
              category := .egress } := by
  rw [mem_collect built]
  constructor
  · rintro ⟨name, hosted, given, gave, member⟩
    obtain ⟨gateway, here, gave⟩ := Option.bind_eq_some_iff.mp gave
    by_cases idle : gateway.status ≠ .active
    · rw [if_pos idle] at gave
      obtain rfl := Option.some.inj gave
      cases member
    · rw [if_neg idle, EgressIPPool.hostname, addressRecords_ipv4] at gave
      obtain rfl := Option.some.inj gave
      refine ⟨name, gateway.ipv4Address, mem_gatewayNames.mp hosted, ?_, List.mem_singleton.mp member⟩
      exact ⟨gateway, here, not_not.mp idle, rfl⟩
  · rintro ⟨name, ip, hosted, ⟨gateway, here, serving, rfl⟩, rfl⟩
    refine ⟨name, mem_gatewayNames.mpr hosted, _, ?_, List.mem_singleton_self _⟩
    rw [here]
    show (if gateway.status ≠ .active then some [] else
      addressRecords cluster (pool.hostname cluster) (some gateway.ipv4Address) none .egress) = _
    rw [if_neg (not_not.mpr serving), EgressIPPool.hostname, addressRecords_ipv4]
    rfl

theorem mem_ehlo {pool : EgressIPPool} {ehlo : List Desired} {row : Desired}
    (built : collect (fun row : PoolAddress =>
      if row.ipAddress.isIpv6 then
        addressRecords cluster (row.ehloHostname cluster) none (some row.ipAddress) .egress
      else addressRecords cluster (row.ehloHostname cluster) (some row.ipAddress) none .egress)
      pool.addresses = some ehlo) :
    row ∈ ehlo ↔ ∃ address ∈ pool.addresses,
      row = { place := ⟨cluster.dnsZone, address.ehloHost cluster,
                if address.ipAddress.isIpv6 then .aaaa else .a⟩
              value := address.ipAddress.text
              category := .egress } := by
  rw [mem_collect built]
  refine exists_congr fun address => and_congr_right fun _ => ?_
  have gives : (if address.ipAddress.isIpv6 then
        addressRecords cluster (address.ehloHostname cluster) none (some address.ipAddress) .egress
      else addressRecords cluster (address.ehloHostname cluster) (some address.ipAddress) none
        .egress) = some [{ place := ⟨cluster.dnsZone, address.ehloHost cluster,
                            if address.ipAddress.isIpv6 then .aaaa else .a⟩
                           value := address.ipAddress.text
                           category := .egress }] := by
    rw [PoolAddress.ehloHostname, addressRecords_ipv4, addressRecords_ipv6]
    split
    · rfl
    · rfl
  rw [gives]
  constructor
  · rintro ⟨given, gave, member⟩
    obtain rfl := Option.some.inj gave
    exact List.mem_singleton.mp member
  · rintro rfl
    exact ⟨_, rfl, List.mem_singleton_self _⟩

variable (site) in
theorem poolRecords_key {pool : EgressIPPool} {records : List Desired}
    (built : poolRecords cluster s pool = some records) :
    (∀ row ∈ records, Plain row) ∧
      ∀ key, (∃ row ∈ records, row.key site = key) ↔ PoolKey site cluster s pool key := by
  obtain ⟨serving, ownBuilt, built⟩ := Option.bind_eq_some_iff.mp built
  obtain ⟨ehlo, ehloBuilt, built⟩ := Option.bind_eq_some_iff.mp built
  obtain rfl := Option.some.inj built
  have trimmed (ip : Ip) : strip ip.text = ip.text := ip.trimmed
  refine ⟨?_, ?_⟩
  · intro row member
    rcases List.mem_append.mp member with own | named
    · obtain ⟨name, ip, -, -, rfl⟩ := (mem_serving ownBuilt).mp own
      exact plain_row (poolName_first pool) .a
    · obtain ⟨address, -, rfl⟩ := (mem_ehlo ehloBuilt).mp named
      exact plain_row address.ehlo.trimmed _
  · intro key
    constructor
    · rintro ⟨row, member, rfl⟩
      rcases List.mem_append.mp member with own | named
      · obtain ⟨name, ip, hosted, serves, rfl⟩ := (mem_serving ownBuilt).mp own
        refine Or.inl ⟨name, ip, hosted, serves, ?_⟩
        rw [Desired.key, trimmed]
        rfl
      · obtain ⟨address, there, rfl⟩ := (mem_ehlo ehloBuilt).mp named
        refine Or.inr ⟨address, there, ?_⟩
        rw [Desired.key, trimmed]
        rfl
    · rintro (⟨name, ip, hosted, serves, rfl⟩ | ⟨address, there, rfl⟩)
      · refine ⟨_, List.mem_append_left _ ((mem_serving ownBuilt).mpr ⟨name, ip, hosted, serves, rfl⟩), ?_⟩
        rw [Desired.key, trimmed]
        rfl
      · refine ⟨_, List.mem_append_right _ ((mem_ehlo ehloBuilt).mpr ⟨address, there, rfl⟩), ?_⟩
        rw [Desired.key, trimmed]
        rfl

/-! ### The invariant -/

theorem poolOwner_injective {pool other : EgressIPPool}
    (same : poolOwner cluster pool = poolOwner cluster other) : pool.poolName = other.poolName := by
  have names : pool.hostname cluster = other.hostname cluster := congrArg Owner.name same
  have chars := congrArg String.toList names
  simp only [EgressIPPool.hostname, String.toList_append, List.append_assoc] at chars
  exact PoolName.ext_text (String.toList_inj.mp (List.append_cancel_right chars))

theorem poolOwner_congr {pool other : EgressIPPool} (same : other.poolName = pool.poolName) :
    poolOwner cluster other = poolOwner cluster pool := by
  rw [poolOwner, poolOwner, EgressIPPool.hostname, EgressIPPool.hostname, same]

/-- The row is stored as a pool's are. -/
structure Clean (row : Row) : Prop where
  value : strip row.value = row.value
  category : row.category = .egress

variable (site cluster) in
/-- **Every pool's rows are what it wants.** -/
structure EgressSynced (s : State) : Prop where
  clean : ∀ {pool row}, row ∈ managedRows s.table.rows (poolOwner cluster pool) → Clean row
  synced : ∀ {pool}, pool ∈ s.pools →
    Holds s.table (poolOwner cluster pool) (PoolKey site cluster s pool)
  named : ∀ {pool other}, pool ∈ s.pools → other ∈ s.pools → pool.poolName = other.poolName →
    pool = other

variable (cluster) in
/-- What the gateways, pools and their rows are stays. -/
structure SameEgress (s s' : State) : Prop where
  gateways : s'.gateways = s.gateways
  pools : s'.pools = s.pools
  rows : ∀ pool, managedRows s'.table.rows (poolOwner cluster pool) =
    managedRows s.table.rows (poolOwner cluster pool)

theorem SameEgress.refl (s : State) : SameEgress cluster s s := ⟨rfl, rfl, fun _ => rfl⟩

theorem SameEgress.trans {s₁ s₂ s₃ : State} (first : SameEgress cluster s₁ s₂)
    (second : SameEgress cluster s₂ s₃) : SameEgress cluster s₁ s₃ :=
  ⟨second.gateways.trans first.gateways, second.pools.trans first.pools,
    fun pool => (second.rows pool).trans (first.rows pool)⟩

theorem poolKey_congr {pool : EgressIPPool}
    (same : ∀ name ip, pool.hosts name = true →
      (Serves (s'.gateways name) ip ↔ Serves (s.gateways name) ip)) (key : Place × String) :
    PoolKey site cluster s' pool key ↔ PoolKey site cluster s pool key := by
  refine or_congr_left (exists_congr fun name => exists_congr fun ip => ?_)
  exact and_congr_right fun hosted => and_congr_left fun _ => same name ip hosted

theorem EgressSynced.congr (synced : EgressSynced site cluster s) (pools : s'.pools = s.pools)
    (rows : ∀ pool, managedRows s'.table.rows (poolOwner cluster pool) =
      managedRows s.table.rows (poolOwner cluster pool))
    (keys : ∀ pool ∈ s.pools, ∀ key, PoolKey site cluster s' pool key ↔ PoolKey site cluster s pool key) :
    EgressSynced site cluster s' := by
  refine ⟨?_, ?_, ?_⟩
  · intro pool row member
    rw [rows] at member
    exact synced.clean member
  · intro pool there
    rw [pools] at there
    exact (synced.synced there).congr (rows pool) (keys pool there)
  · rw [pools]
    exact synced.named

theorem EgressSynced.frame (synced : EgressSynced site cluster s) (same : SameEgress cluster s s') :
    EgressSynced site cluster s' := by
  refine synced.congr same.pools same.rows fun pool _ => poolKey_congr fun name ip _ => ?_
  rw [same.gateways]

theorem reconcile_sameEgress {owner : Owner} {records : Option (List Desired)}
    (done : reconcile site s owner records = some s') (kind : owner.doctype ≠ "Egress IP Pool") :
    SameEgress cluster s s' := by
  have rows : ∀ pool, managedRows s'.table.rows (poolOwner cluster pool) =
      managedRows s.table.rows (poolOwner cluster pool) :=
    fun pool => reconcile_rows_of_ne done fun same => kind (congrArg Owner.doctype same).symm
  obtain ⟨desired, table, -, -, rfl⟩ := reconcile_eq_some done
  exact ⟨rfl, rfl, rows⟩

/-! ### Syncing pools -/

variable (site cluster) in
/-- **These pools' rows are what they want**, and no other pool's rows changed. -/
structure Resynced (these : List EgressIPPool) (s s' : State) : Prop where
  gateways : s'.gateways = s.gateways
  pools : s'.pools = s.pools
  held : ∀ pool ∈ these, Holds s'.table (poolOwner cluster pool) (PoolKey site cluster s pool)
  others : ∀ other, (∀ pool ∈ these, pool.poolName ≠ other.poolName) →
    managedRows s'.table.rows (poolOwner cluster other) =
      managedRows s.table.rows (poolOwner cluster other)
  clean : (∀ pool, ∀ row ∈ managedRows s.table.rows (poolOwner cluster pool), Clean row) →
    ∀ pool, ∀ row ∈ managedRows s'.table.rows (poolOwner cluster pool), Clean row

theorem syncPoolRecords_resynced {pool : EgressIPPool}
    (done : syncPoolRecords site cluster s pool = some s') : Resynced site cluster [pool] s s' := by
  have others : ∀ other, pool.poolName ≠ other.poolName →
      managedRows s'.table.rows (poolOwner cluster other) =
        managedRows s.table.rows (poolOwner cluster other) :=
    fun other differs => reconcile_rows_of_ne done fun same => differs (poolOwner_injective same).symm
  obtain ⟨desired, table, built, result, rfl⟩ := reconcile_eq_some done
  obtain ⟨plain, keys⟩ := poolRecords_key site built
  refine ⟨rfl, rfl, ?_, ?_, ?_⟩
  · intro found member
    obtain rfl := List.mem_singleton.mp member
    have holds := reconcile_holds result fun row there => (plain row there).normal
    exact holds.congr rfl fun key => (keys key).symm
  · intro other differs
    exact others other (differs pool (List.mem_singleton_self _))
  · intro clean other row member
    by_cases same : pool.poolName = other.poolName
    · rw [poolOwner_congr same.symm] at member
      rcases reconcile_origin result member with before | ⟨wanted, there, name, rfl⟩
      · exact clean pool row before
      · refine ⟨?_, (plain wanted there).category⟩
        show strip (strip wanted.value) = strip wanted.value
        rw [(plain wanted there).normal.value, (plain wanted there).normal.value]
    · rw [others other same] at member
      exact clean other row member

theorem syncPools_resynced {pools : List EgressIPPool}
    (distinct : ∀ pool ∈ pools, ∀ other ∈ pools, pool.poolName = other.poolName → pool = other)
    (done : syncPools site cluster s pools = some s') : Resynced site cluster pools s s' := by
  induction pools generalizing s with
  | nil =>
    obtain rfl := Option.some.inj done
    exact ⟨rfl, rfl, nofun, fun _ _ => rfl, fun clean => clean⟩
  | cons pool rest ih =>
    rw [syncPools, List.foldlM_cons] at done
    obtain ⟨middle, first, later⟩ := Option.bind_eq_some_iff.mp done
    have one := syncPoolRecords_resynced first
    have all := ih (fun p there q there' => distinct p (List.mem_cons_of_mem _ there) q
      (List.mem_cons_of_mem _ there')) later
    have keys : ∀ pool key, PoolKey site cluster middle pool key ↔ PoolKey site cluster s pool key :=
      fun pool key => poolKey_congr (fun name ip _ => by rw [one.gateways]) key
    refine ⟨all.gateways.trans one.gateways, all.pools.trans one.pools, ?_, ?_, ?_⟩
    · intro found member
      by_cases again : ∃ other ∈ rest, other.poolName = found.poolName
      · obtain ⟨other, there, same⟩ := again
        obtain rfl := distinct other (List.mem_cons_of_mem _ there) found member same
        exact (all.held other there).congr rfl fun key => (keys other key).symm
      · have last : found = pool := by
          rcases List.mem_cons.mp member with first | there
          · exact first
          · exact absurd ⟨found, there, rfl⟩ again
        subst last
        have stays := all.others found fun p there same => again ⟨p, there, same⟩
        exact (one.held found (List.mem_singleton_self _)).congr stays fun _ => Iff.rfl
    · intro other differs
      rw [all.others other fun p there => differs p (List.mem_cons_of_mem _ there),
        one.others other fun p there => List.mem_singleton.mp there ▸ differs pool List.mem_cons_self]
    · exact fun clean => all.clean (one.clean clean)

end SuiteCloud.Mail.Cluster.Records
