/-
**The pool hostnames follow the gateways that serve.**

Every operation of the cluster against the rows of its pools. The nodes' operations leave them; a
gateway's re-sync them through `set_status`, and `check_gateway` and `after_gateway_provision`, which
write the status with a bare `db_set`, do not.

### What is proved

* `Serving` — a pool's own hostname has one A record per address of its active gateways, and no other.
* `setGateway_serving` — what a bare status write does to it.
* `pool_resolves_to_serving` — **in every run in which no bare write starts or stops a gateway for a
  pool, every pool is served exactly**, and a step after which they are is one that meets this.
* `upgraded_gateway_missing` — a gateway that is back after its upgrade and in no record.
-/

import SuiteCloud.Mail.Cluster.Records.Egress

namespace SuiteCloud.Mail.Cluster.Records

open SuiteCloud.Library SuiteCloud.Dns

variable {site : Site} {cluster : StalwartCluster} {s s' : State} {name : String}

/-! ### The nodes' operations leave the pools -/

section Nodes

variable {health : Health} {node : StalwartNode}

theorem setNode_sameEgress (node : StalwartNode) : SameEgress cluster s (s.setNode node) :=
  ⟨rfl, rfl, fun _ => rfl⟩

theorem syncNodeRecords_sameEgress {includeIngress : Bool}
    (done : syncNodeRecords site cluster s name includeIngress = some s') :
    SameEgress cluster s s' := by
  obtain ⟨node, -, done⟩ := Option.bind_eq_some_iff.mp done
  obtain ⟨middle, reconciled, done⟩ := Option.bind_eq_some_iff.mp done
  have rows : SameEgress cluster s middle := reconcile_sameEgress reconciled (nodeOwner_kind name)
  obtain rfl := Option.some.inj done
  split
  · exact rows.trans (setNode_sameEgress _)
  · exact rows

theorem syncSpfRecord_sameEgress (done : syncSpfRecord site cluster s = some s') :
    SameEgress cluster s s' :=
  reconcile_sameEgress done (clusterOwner_kind cluster)

theorem activateNode_sameEgress (done : activateNode site cluster s name = some s') :
    SameEgress cluster s s' := by
  obtain ⟨node, -, done⟩ := Option.bind_eq_some_iff.mp done
  split at done
  · cases done
  · obtain ⟨middle, synced, spf⟩ := Option.bind_eq_some_iff.mp done
    have rows := (setNode_sameEgress _).trans (syncNodeRecords_sameEgress synced)
    exact rows.trans (syncSpfRecord_sameEgress spf)

theorem notReady_sameEgress (node : StalwartNode) (expired : Bool) :
    SameEgress cluster s (notReady s node expired) := by
  rw [notReady]
  split
  · exact setNode_sameEgress _
  · exact SameEgress.refl s

theorem finishBootstrap_sameEgress (done : finishBootstrap site cluster s health = some s') :
    SameEgress cluster s s' := by
  rw [finishBootstrap] at done
  split at done
  · obtain rfl := Option.some.inj done
    exact SameEgress.refl s
  · obtain ⟨node, -, done⟩ := Option.bind_eq_some_iff.mp done
    split at done
    · obtain rfl := Option.some.inj done
      exact SameEgress.refl s
    · split at done
      · obtain rfl := Option.some.inj done
        exact (notReady_sameEgress node true).trans ⟨rfl, rfl, fun _ => rfl⟩
      · obtain rfl := Option.some.inj done
        exact SameEgress.refl s
      · have started : SameEgress cluster s { s with clusterStatus := .active } :=
          ⟨rfl, rfl, fun _ => rfl⟩
        exact started.trans (activateNode_sameEgress done)

theorem checkNode_sameEgress (done : checkNode site cluster s name health = some s') :
    SameEgress cluster s s' := by
  obtain ⟨node, -, done⟩ := Option.bind_eq_some_iff.mp done
  split at done
  · exact finishBootstrap_sameEgress done
  · split at done
    · obtain rfl := Option.some.inj done
      exact SameEgress.refl s
    · split at done
      · obtain rfl := Option.some.inj done
        exact notReady_sameEgress node _
      · split at done
        · exact activateNode_sameEgress done
        · obtain rfl := Option.some.inj done
          exact SameEgress.refl s

theorem drainNode_sameEgress (done : drainNode site cluster s name = some s') :
    SameEgress cluster s s' := by
  obtain ⟨middle, synced, done⟩ := Option.bind_eq_some_iff.mp done
  obtain ⟨node, -, done⟩ := Option.bind_eq_some_iff.mp done
  have written := (setNode_sameEgress _).trans (syncSpfRecord_sameEgress done)
  exact (syncNodeRecords_sameEgress synced).trans written

theorem restoreNode_sameEgress (done : restoreNode site cluster s name health = some s') :
    SameEgress cluster s s' := by
  obtain ⟨node, -, done⟩ := Option.bind_eq_some_iff.mp done
  split at done
  · cases done
  · exact (setNode_sameEgress _).trans (checkNode_sameEgress done)

theorem provisionNode_sameEgress (done : provisionNode cluster s name = some s') :
    SameEgress cluster s s' := by
  obtain ⟨node, -, done⟩ := Option.bind_eq_some_iff.mp done
  split at done
  · cases done
  · split at done
    · split at done
      · cases done
      · obtain rfl := Option.some.inj done
        exact ⟨rfl, rfl, fun _ => rfl⟩
    · split at done
      · obtain rfl := Option.some.inj done
        exact setNode_sameEgress _
      · split at done
        · obtain rfl := Option.some.inj done
          exact setNode_sameEgress _
        · cases done

theorem afterProvision_sameEgress (done : afterProvision site cluster s name health = some s') :
    SameEgress cluster s s' := by
  obtain ⟨node, -, done⟩ := Option.bind_eq_some_iff.mp done
  obtain ⟨middle, synced, done⟩ := Option.bind_eq_some_iff.mp done
  obtain ⟨listed, spf, done⟩ := Option.bind_eq_some_iff.mp done
  have started : SameEgress cluster s
      (if node.isBootstrapNode ∧ s.clusterStatus = .failed ∧ s.bootstrapNode = some name then
        { s with clusterStatus := .bootstrapping } else s) := by
    split
    · exact ⟨rfl, rfl, fun _ => rfl⟩
    · exact SameEgress.refl s
  have rows := started.trans ((setNode_sameEgress _).trans (syncNodeRecords_sameEgress synced))
  exact rows.trans ((syncSpfRecord_sameEgress spf).trans (checkNode_sameEgress done))

theorem afterProvisionFailed_sameEgress {exhausted : Bool}
    (done : afterProvisionFailed s name exhausted = some s') : SameEgress cluster s s' := by
  obtain ⟨node, -, done⟩ := Option.bind_eq_some_iff.mp done
  obtain rfl := Option.some.inj done
  split
  · exact ⟨rfl, rfl, fun _ => rfl⟩
  · exact setNode_sameEgress _

theorem upgradeNode_sameEgress (done : upgradeNode site cluster s name = some s') :
    SameEgress cluster s s' := by
  obtain ⟨node, -, done⟩ := Option.bind_eq_some_iff.mp done
  split at done
  · cases done
  · split at done
    · exact drainNode_sameEgress done
    · obtain rfl := Option.some.inj done
      exact SameEgress.refl s

theorem afterUpgrade_sameEgress (done : afterUpgrade site cluster s name health = some s') :
    SameEgress cluster s s' := by
  obtain ⟨node, -, done⟩ := Option.bind_eq_some_iff.mp done
  exact (setNode_sameEgress _).trans (checkNode_sameEgress done)

theorem insertNode_sameEgress {ipv4 : Ip} {ipv6 : Option Ip} {role : Role} {enabled : Bool}
    (done : insertNode site cluster s name ipv4 ipv6 role enabled = some s') :
    SameEgress cluster s s' := by
  rw [insertNode] at done
  split at done
  · cases done
  · have added : SameEgress cluster s { s with
        nodes := s.nodes ++ [⟨name, ipv4, ipv6, .pending, enabled, role, false, false⟩] } :=
      ⟨rfl, rfl, fun _ => rfl⟩
    exact added.trans (syncNodeRecords_sameEgress done)

theorem moveNode_sameEgress {ipv4 : Ip} {ipv6 : Option Ip}
    (done : moveNode site cluster s node ipv4 ipv6 = some s') : SameEgress cluster s s' := by
  rw [moveNode] at done
  split at done
  · obtain ⟨synced, own, spf⟩ := Option.bind_eq_some_iff.mp done
    exact (syncNodeRecords_sameEgress own).trans (syncSpfRecord_sameEgress spf)
  · obtain rfl := Option.some.inj done
    exact SameEgress.refl _

theorem saveNode_sameEgress {ipv4 : Ip} {ipv6 : Option Ip} {role : Role} {enabled : Bool}
    (done : saveNode site cluster s name ipv4 ipv6 role enabled = some s') :
    SameEgress cluster s s' := by
  obtain ⟨before, -, done⟩ := Option.bind_eq_some_iff.mp done
  obtain ⟨middle, moved, done⟩ := Option.bind_eq_some_iff.mp done
  have rows := (setNode_sameEgress _).trans (moveNode_sameEgress moved)
  split at done
  · exact rows.trans (drainNode_sameEgress done)
  · obtain rfl := Option.some.inj done
    exact rows

theorem deleteNode_sameEgress (done : deleteNode site cluster s name = some s') :
    SameEgress cluster s s' := by
  obtain ⟨node, -, done⟩ := Option.bind_eq_some_iff.mp done
  split at done
  · cases done
  · split at done
    · cases done
    · obtain ⟨middle, reconciled, spf⟩ := Option.bind_eq_some_iff.mp done
      have left : SameEgress cluster s (if s.bootstrapNode = some name then
          { s with bootstrapNode := none, clusterStatus := .pending } else s) := by
        split
        · exact ⟨rfl, rfl, fun _ => rfl⟩
        · exact SameEgress.refl s
      have rows := left.trans (reconcile_sameEgress reconciled (nodeOwner_kind name))
      have gone : SameEgress cluster middle
          { middle with nodes := middle.nodes.filter fun other => other.name ≠ name } :=
        ⟨rfl, rfl, fun _ => rfl⟩
      exact rows.trans (gone.trans (syncSpfRecord_sameEgress spf))

end Nodes

/-! ### A gateway changes -/

variable (cluster) in
/-- No gateway but this one changes, and no pool and no pool's row. -/
structure Besides (name : String) (s s' : State) : Prop where
  gateways : ∀ other, other ≠ name → s'.gateways other = s.gateways other
  pools : s'.pools = s.pools
  rows : ∀ pool, managedRows s'.table.rows (poolOwner cluster pool) =
    managedRows s.table.rows (poolOwner cluster pool)

theorem setGateway_self (gateway : EgressGateway) :
    (s.setGateway name gateway).gateways name = some gateway :=
  Function.update_self _ _ _

theorem setGateway_of_ne (gateway : EgressGateway) {other : String} (differs : other ≠ name) :
    (s.setGateway name gateway).gateways other = s.gateways other :=
  Function.update_of_ne differs _ _

theorem setGateway_setGateway (gateway gateway' : EgressGateway) :
    (s.setGateway name gateway).setGateway name gateway' = s.setGateway name gateway' := by
  show ({ s with gateways := Function.update (Function.update s.gateways name _) name _ } : State) = _
  rw [Function.update_idem]
  rfl

theorem setGateway_besides (gateway : EgressGateway) : Besides cluster name s (s.setGateway name gateway) :=
  ⟨fun _ differs => setGateway_of_ne gateway differs, rfl, fun _ => rfl⟩

theorem Besides.trans {s'' : State} (first : Besides cluster name s s')
    (second : SameEgress cluster s' s'') : Besides cluster name s s'' := by
  refine ⟨fun other differs => ?_, second.pools.trans first.pools, fun pool => ?_⟩
  · rw [second.gateways, first.gateways other differs]
  · rw [second.rows, first.rows]

theorem EgressSynced.besides (synced : EgressSynced site cluster s) (besides : Besides cluster name s s')
    (serves : ∀ pool ∈ s.pools, pool.hosts name = true → ∀ ip,
      (Serves (s'.gateways name) ip ↔ Serves (s.gateways name) ip)) : EgressSynced site cluster s' := by
  refine synced.congr besides.pools besides.rows fun pool there => poolKey_congr fun other ip hosted => ?_
  by_cases same : other = name
  · subst same
    exact serves pool there hosted ip
  · rw [besides.gateways other same]

theorem mem_poolsOf {pool : EgressIPPool} :
    pool ∈ poolsOf s name ↔ pool ∈ s.pools ∧ pool.hosts name = true := by
  rw [poolsOf, List.mem_mergeSort, List.mem_filter]

/-- **The gateway's pools are re-synced.** -/
theorem EgressSynced.resync {s₁ : State} (synced : EgressSynced site cluster s)
    (besides : Besides cluster name s s₁) (done : syncPools site cluster s₁ (poolsOf s₁ name) = some s') :
    EgressSynced site cluster s' := by
  have named : ∀ {pool other}, pool ∈ s₁.pools → other ∈ s₁.pools → pool.poolName = other.poolName →
      pool = other := by
    rw [besides.pools]
    exact synced.named
  have resynced := syncPools_resynced (fun pool there other there' same =>
    named (mem_poolsOf.mp there).1 (mem_poolsOf.mp there').1 same) done
  have keys : ∀ pool key, PoolKey site cluster s' pool key ↔ PoolKey site cluster s₁ pool key :=
    fun pool => poolKey_congr fun other ip _ => by rw [resynced.gateways]
  refine ⟨?_, ?_, ?_⟩
  · intro pool row member
    refine resynced.clean (fun pool row member => ?_) pool row member
    rw [besides.rows] at member
    exact synced.clean member
  · intro pool there
    rw [resynced.pools] at there
    by_cases hosted : pool.hosts name = true
    · exact (resynced.held pool (mem_poolsOf.mpr ⟨there, hosted⟩)).congr rfl (keys pool)
    · have rows := resynced.others pool fun other member same =>
        hosted (named (mem_poolsOf.mp member).1 there same ▸ (mem_poolsOf.mp member).2)
      rw [besides.pools] at there
      refine (synced.synced there).congr (rows.trans (besides.rows pool)) fun key => ?_
      rw [keys]
      refine poolKey_congr (fun other ip hosts => ?_) key
      rw [besides.gateways other fun same => hosted (same ▸ hosts)]
  · rw [resynced.pools]
    exact named

theorem serves_some {gateway : EgressGateway} {ip : Ip} :
    Serves (some gateway) ip ↔ gateway.status = .active ∧ gateway.ipv4Address = ip := by
  constructor
  · rintro ⟨found, same, serves⟩
    rw [Option.some.inj same]
    exact serves
  · rintro ⟨active, address⟩
    exact ⟨gateway, rfl, active, address⟩

theorem setGatewayStatus_synced {status : GatewayStatus} (synced : EgressSynced site cluster s)
    (done : setGatewayStatus site cluster s name status = some s') : EgressSynced site cluster s' := by
  obtain ⟨gateway, here, done⟩ := Option.bind_eq_some_iff.mp done
  by_cases toggles : (gateway.status = .active) ≠ (status = .active)
  · rw [if_pos toggles] at done
    exact synced.resync (setGateway_besides _) done
  · rw [if_neg toggles] at done
    obtain rfl := Option.some.inj done
    refine synced.besides (setGateway_besides _) fun _ _ _ ip => ?_
    rw [setGateway_self, here, serves_some, serves_some]
    exact and_congr_left fun _ => iff_of_eq (not_not.mp toggles).symm

theorem syncGatewayRecords_sameEgress (done : syncGatewayRecords site cluster s name = some s') :
    SameEgress cluster s s' := by
  obtain ⟨gateway, -, done⟩ := Option.bind_eq_some_iff.mp done
  exact reconcile_sameEgress done (gatewayOwner_kind name)

theorem insertGateway_synced {ipv4 : Ip} {enabled : Bool} (synced : EgressSynced site cluster s)
    (done : insertGateway site cluster s name ipv4 enabled = some s') : EgressSynced site cluster s' := by
  rw [insertGateway] at done
  by_cases taken : (s.gateways name).isSome
  · rw [if_pos taken] at done
    cases done
  · rw [if_neg taken] at done
    rw [Option.not_isSome_iff_eq_none] at taken
    have added : EgressSynced site cluster (s.setGateway name ⟨ipv4, .pending, enabled⟩) := by
      refine synced.besides (setGateway_besides _) fun _ _ _ ip => ?_
      rw [setGateway_self, taken, serves_some]
      exact iff_of_false (fun serves => nomatch serves.1) fun ⟨_, nobody, _⟩ => nomatch nobody
    exact added.frame (syncGatewayRecords_sameEgress done)

theorem saveGateway_synced {ipv4 : Ip} {enabled : Bool} (synced : EgressSynced site cluster s)
    (done : saveGateway site cluster s name ipv4 enabled = some s') : EgressSynced site cluster s' := by
  obtain ⟨before, here, done⟩ := Option.bind_eq_some_iff.mp done
  obtain ⟨middle, moved, done⟩ := Option.bind_eq_some_iff.mp done
  have follows : EgressSynced site cluster middle := by
    rw [moveGateway] at moved
    by_cases address : before.ipv4Address ≠ ipv4
    · rw [if_pos address] at moved
      obtain ⟨own, written, resynced⟩ := Option.bind_eq_some_iff.mp moved
      have besides := (setGateway_besides _).trans (syncGatewayRecords_sameEgress written)
      exact synced.resync besides resynced
    · rw [if_neg address] at moved
      obtain rfl := Option.some.inj moved
      refine synced.besides (setGateway_besides _) fun _ _ _ ip => ?_
      rw [setGateway_self, here, serves_some, serves_some, not_not.mp address]
  split at done
  · exact setGatewayStatus_synced follows done
  · obtain rfl := Option.some.inj done
    exact follows

theorem deleteGateway_synced (synced : EgressSynced site cluster s)
    (done : deleteGateway site s name = some s') : EgressSynced site cluster s' := by
  obtain ⟨gateway, here, done⟩ := Option.bind_eq_some_iff.mp done
  split at done
  · cases done
  · split at done
    · cases done
    · rename_i unused
      obtain ⟨middle, reconciled, done⟩ := Option.bind_eq_some_iff.mp done
      have rows : SameEgress cluster s middle := reconcile_sameEgress reconciled (gatewayOwner_kind name)
      obtain rfl := Option.some.inj done
      have gone : Besides cluster name middle
          { middle with gateways := Function.update middle.gateways name none } :=
        ⟨fun _ differs => Function.update_of_ne differs _ _, rfl, fun _ => rfl⟩
      refine (synced.frame rows).besides gone fun pool there hosted => absurd ?_ unused
      rw [rows.pools] at there
      exact List.any_eq_true.mpr ⟨pool, there, hosted⟩

/-! ### A pool changes -/

section Pools

variable {pool : EgressIPPool}

theorem storePool_named {pools : List EgressIPPool}
    (named : ∀ {pool other}, pool ∈ pools → other ∈ pools → pool.poolName = other.poolName → pool = other)
    {found other : EgressIPPool} (member : found ∈ storePool pools pool)
    (member' : other ∈ storePool pools pool) (same : found.poolName = other.poolName) : found = other := by
  rcases mem_storePool member with rfl | ⟨there, differs⟩
  · rcases mem_storePool member' with rfl | ⟨-, differs⟩
    · rfl
    · exact absurd same.symm differs
  · rcases mem_storePool member' with rfl | ⟨there', -⟩
    · exact absurd same differs
    · exact named there there' same

theorem poolKey_sameSnapshot {before : EgressIPPool} (name : before.poolName = pool.poolName)
    (same : before.sameSnapshot pool) (key : Place × String) :
    PoolKey site cluster s pool key ↔ PoolKey site cluster s before key := by
  have hosts (gateway : String) : pool.hosts gateway = before.hosts gateway :=
    (same.2.any_eq).symm
  have place : pool.ownPlace site cluster = before.ownPlace site cluster := by
    rw [EgressIPPool.ownPlace, EgressIPPool.ownPlace, EgressIPPool.ownHost, EgressIPPool.ownHost, name]
  rw [PoolKey, PoolKey, place]
  refine or_congr ?_ (exists_congr fun row => and_congr_left fun _ => same.2.mem_iff.symm)
  exact exists_congr fun gateway => by rw [hosts]

theorem savePool_synced (synced : EgressSynced site cluster s)
    (done : savePool site cluster s pool = some s') : EgressSynced site cluster s' := by
  rcases savePool_cases done with ⟨before, found, name, same, rfl⟩ | ⟨middle, written, spf⟩
  · refine ⟨synced.clean, fun {other} member => ?_, fun there there' => storePool_named synced.named there there'⟩
    rcases mem_storePool member with rfl | ⟨there, -⟩
    · have held := synced.synced found
      rw [poolOwner_congr name] at held
      exact held.congr rfl (poolKey_sameSnapshot name same)
    · exact (synced.synced there).congr rfl fun _ => Iff.rfl
  · have resynced := syncPoolRecords_resynced written
    refine EgressSynced.frame ?_ (syncSpfRecord_sameEgress spf)
    have keys : ∀ other key, PoolKey site cluster middle other key ↔ PoolKey site cluster s other key :=
      fun other => poolKey_congr fun _ _ _ => by rw [resynced.gateways]
    refine ⟨?_, ?_, ?_⟩
    · intro other row member
      exact resynced.clean (fun _ _ before => synced.clean before) other row member
    · intro other member
      rw [resynced.pools] at member
      rcases mem_storePool member with rfl | ⟨there, differs⟩
      · exact (resynced.held other (List.mem_singleton_self _)).congr rfl (keys other)
      · refine (synced.synced there).congr (resynced.others other ?_) (keys other)
        intro stored only
        obtain rfl := List.mem_singleton.mp only
        exact differs.symm
    · rw [resynced.pools]
      exact fun there there' => storePool_named synced.named there there'

theorem deletePool_synced (synced : EgressSynced site cluster s)
    (done : deletePool site cluster s pool = some s') : EgressSynced site cluster s' := by
  rw [deletePool] at done
  split at done
  · obtain ⟨middle, reconciled, spf⟩ := Option.bind_eq_some_iff.mp done
    refine EgressSynced.frame ?_ (syncSpfRecord_sameEgress spf)
    have others : ∀ other, other.poolName ≠ pool.poolName →
        managedRows middle.table.rows (poolOwner cluster other) =
          managedRows s.table.rows (poolOwner cluster other) :=
      fun other differs => reconcile_rows_of_ne reconciled fun same => differs (poolOwner_injective same)
    obtain ⟨desired, table, nothing, result, rfl⟩ := reconcile_eq_some reconciled
    obtain rfl := Option.some.inj nothing
    refine ⟨?_, ?_, ?_⟩
    · intro other row member
      by_cases same : other.poolName = pool.poolName
      · rw [poolOwner_congr same] at member
        rcases reconcile_origin result member with before | ⟨wanted, none, -⟩
        · exact synced.clean before
        · cases none
      · exact synced.clean (others other same ▸ member)
    · intro other member
      obtain ⟨there, differs⟩ := List.mem_filter.mp member
      exact (synced.synced there).congr (others other (of_decide_eq_true differs)) fun _ => Iff.rfl
    · intro other other' member member'
      exact synced.named (List.mem_filter.mp member).1 (List.mem_filter.mp member').1
  · cases done

end Pools

/-! ### A pool's own hostname -/

section Own

variable (site cluster) in
/-- The pool's records for its own hostname. -/
def ownRecords (s : State) (pool : EgressIPPool) : List Row :=
  (managedRows s.table.rows (poolOwner cluster pool)).filter fun row =>
    row.place.dnsZone = cluster.dnsZone ∧ row.place.host = site.lower (pool.ownHost cluster)

variable (site cluster) in
/-- **The pool's hostname resolves to exactly the gateways that serve it**: one A record for the address
of each active gateway it has an address on. -/
structure Serving (s : State) (pool : EgressIPPool) : Prop where
  kind : ∀ row ∈ ownRecords site cluster s pool,
    row.place.recordType = .a ∧ row.category = .egress
  once : ((ownRecords site cluster s pool).map Row.value).Nodup
  serves : ∀ value, value ∈ (ownRecords site cluster s pool).map Row.value ↔
    ∃ name, pool.hosts name = true ∧ ∃ gateway, s.gateways name = some gateway ∧
      gateway.status = .active ∧ gateway.ipv4Address.text = value

variable (site cluster) in
def AllServing (s : State) : Prop := ∀ pool ∈ s.pools, Serving site cluster s pool

variable {pool : EgressIPPool}

theorem ehloHost_ne_ownHost (row : PoolAddress) :
    site.lower (row.ehloHost cluster) ≠ site.lower (pool.ownHost cluster) := by
  intro same
  have dots := congrArg (fun text : String => text.toList.count '.') same
  simp only [site.lower_dots, PoolAddress.ehloHost, EgressIPPool.ownHost, String.toList_append,
    List.count_append, List.count_eq_zero_of_not_mem row.ehlo.single] at dots
  have out : ".out".toList.count '.' = 1 := by decide
  have dot : ".".toList.count '.' = 1 := by decide
  omega

theorem own_of_poolKey {place : Place} {value : String}
    (wanted : PoolKey site cluster s pool (place, value))
    (host : place.host = site.lower (pool.ownHost cluster)) :
    place = pool.ownPlace site cluster ∧
      ∃ name ip, pool.hosts name = true ∧ Serves (s.gateways name) ip ∧ ip.text = value := by
  rcases wanted with ⟨name, ip, hosted, serves, same⟩ | ⟨row, -, same⟩
  · obtain ⟨rfl, rfl⟩ := Prod.mk.inj same
    exact ⟨rfl, name, ip, hosted, serves, rfl⟩
  · obtain ⟨rfl, -⟩ := Prod.mk.inj same
    exact absurd host (ehloHost_ne_ownHost row)

variable (synced : EgressSynced site cluster s) (there : pool ∈ s.pools)
include synced there

theorem ownRecords_key {row : Row} (member : row ∈ ownRecords site cluster s pool) :
    row.key = (pool.ownPlace site cluster, row.value) ∧ row.category = .egress ∧
      ∃ name ip, pool.hosts name = true ∧ Serves (s.gateways name) ip ∧ ip.text = row.value := by
  obtain ⟨managed, own⟩ := List.mem_filter.mp member
  have clean := synced.clean managed
  have wanted := ((synced.synced there).keys row.key).mp (List.mem_map_of_mem managed)
  rw [Row.key, clean.value] at wanted ⊢
  obtain ⟨place, serves⟩ := own_of_poolKey wanted (of_decide_eq_true own).2
  rw [place]
  exact ⟨rfl, clean.category, serves⟩

theorem mem_ownRecords {value : String} : value ∈ (ownRecords site cluster s pool).map Row.value ↔
    ∃ name ip, pool.hosts name = true ∧ Serves (s.gateways name) ip ∧ ip.text = value := by
  constructor
  · intro member
    obtain ⟨row, own, rfl⟩ := List.mem_map.mp member
    exact (ownRecords_key synced there own).2.2
  · rintro ⟨name, ip, hosted, serves, rfl⟩
    have wanted : PoolKey site cluster s pool (pool.ownPlace site cluster, ip.text) :=
      Or.inl ⟨name, ip, hosted, serves, rfl⟩
    obtain ⟨row, managed, key⟩ := List.mem_map.mp (((synced.synced there).keys _).mpr wanted)
    rw [Row.key, (synced.clean managed).value] at key
    obtain ⟨place, value⟩ := Prod.mk.inj key
    refine List.mem_map.mpr ⟨row, List.mem_filter.mpr ⟨managed, ?_⟩, value⟩
    rw [place]
    exact decide_eq_true ⟨rfl, rfl⟩

theorem serving_of_synced : Serving site cluster s pool := by
  refine ⟨?_, ?_, ?_⟩
  · intro row member
    obtain ⟨key, category, -⟩ := ownRecords_key synced there member
    exact ⟨congrArg (fun key : Place × String => key.1.recordType) key, category⟩
  · have once : ((ownRecords site cluster s pool).map Row.key).Nodup :=
      (synced.synced there).once.sublist (List.filter_sublist.map Row.key)
    rw [List.map_congr_left fun row member => (ownRecords_key synced there member).1] at once
    exact List.Nodup.of_map (fun value => (pool.ownPlace site cluster, value))
      (by rw [List.map_map]; exact once)
  · intro value
    rw [mem_ownRecords synced there]
    constructor
    · rintro ⟨name, ip, hosted, ⟨gateway, here, active, rfl⟩, rfl⟩
      exact ⟨name, hosted, gateway, here, active, rfl⟩
    · rintro ⟨name, hosted, gateway, here, active, rfl⟩
      exact ⟨name, gateway.ipv4Address, hosted, ⟨gateway, here, active, rfl⟩, rfl⟩

end Own

/-! ### The bare status writes -/

section Bare

variable {gateway : EgressGateway} {status : GatewayStatus} {health : Health}

/-- Every pool that hosts the gateway is served from its address by another one too. -/
def Covered (s : State) (name : String) : Prop :=
  ∀ pool ∈ s.pools, pool.hosts name = true → ∀ gateway ∈ s.gateways name,
    ∃ other ∈ pool.gatewayNames, other ≠ name ∧ ∃ found ∈ s.gateways other,
      found.status = .active ∧ found.ipv4Address = gateway.ipv4Address

instance (s : State) (name : String) : Decidable (Covered s name) :=
  inferInstanceAs (Decidable (∀ pool ∈ s.pools, pool.hosts name = true → ∀ gateway ∈ s.gateways name,
    ∃ other ∈ pool.gatewayNames, other ≠ name ∧ ∃ found ∈ s.gateways other,
      found.status = .active ∧ found.ipv4Address = gateway.ipv4Address))

/-- What this one would serve, another one of the pool does. -/
theorem Covered.serves (covered : Covered s name) {pool : EgressIPPool} (there : pool ∈ s.pools)
    (hosted : pool.hosts name = true) (here : s.gateways name = some gateway) :
    ∃ other, other ≠ name ∧ pool.hosts other = true ∧
      Serves (s.gateways other) gateway.ipv4Address := by
  obtain ⟨other, member, differs, found, known, active, address⟩ := covered pool there hosted gateway here
  exact ⟨other, differs, mem_gatewayNames.mp member, found, known, active, address⟩

theorem setGateway_synced (synced : EgressSynced site cluster s) (here : s.gateways name = some gateway)
    (harmless : (gateway.status = .active ↔ status = .active) ∨ Covered s name) :
    EgressSynced site cluster (s.setGateway name { gateway with status := status }) := by
  rcases harmless with same | covered
  · refine synced.besides (setGateway_besides _) fun _ _ _ ip => ?_
    rw [setGateway_self, here, serves_some, serves_some]
    exact and_congr_left fun _ => same.symm
  · refine synced.congr rfl (fun _ => rfl) fun pool there key => or_congr_left ?_
    constructor
    · rintro ⟨served, ip, hosted, serves, key⟩
      by_cases self : served = name
      · subst self
        rw [setGateway_self, serves_some] at serves
        obtain ⟨other, differs, hosts, serving⟩ := covered.serves there hosted here
        exact ⟨other, ip, hosts, serves.2 ▸ serving, key⟩
      · rw [setGateway_of_ne _ self] at serves
        exact ⟨served, ip, hosted, serves, key⟩
    · rintro ⟨served, ip, hosted, serves, key⟩
      by_cases self : served = name
      · subst self
        rw [here, serves_some] at serves
        obtain ⟨other, differs, hosts, serving⟩ := covered.serves there hosted here
        refine ⟨other, ip, hosts, ?_, key⟩
        rw [setGateway_of_ne _ differs]
        exact serves.2 ▸ serving
      · refine ⟨served, ip, hosted, ?_, key⟩
        rw [setGateway_of_ne _ self]
        exact serves

/-- **What a bare status write does**: it leaves every pool served exactly if and only if it starts or
stops no service that a pool has from this gateway alone. -/
theorem setGateway_serving (synced : EgressSynced site cluster s) (here : s.gateways name = some gateway) :
    AllServing site cluster (s.setGateway name { gateway with status := status }) ↔
      (gateway.status = .active ↔ status = .active) ∨ Covered s name := by
  constructor
  · intro serving
    by_cases same : gateway.status = .active ↔ status = .active
    · exact Or.inl same
    refine Or.inr fun pool there hosted gateway' known => ?_
    obtain rfl := Option.some.inj (here.symm.trans known)
    have exactly := ((serving pool there).serves gateway.ipv4Address.text).symm.trans
      (mem_ownRecords synced there)
    -- Whichever of the two states has the address, the other has it from another gateway.
    by_cases active : status = .active
    · obtain ⟨other, ip, hosts, ⟨found, there', serves, address⟩, value⟩ :=
        exactly.mp ⟨name, hosted, _, setGateway_self _, active, rfl⟩
      refine ⟨other, mem_gatewayNames.mpr hosts, ?_, found, there', serves, ?_⟩
      · rintro rfl
        obtain rfl := Option.some.inj (here.symm.trans there')
        exact same (iff_of_true serves active)
      · exact address.trans (Ip.ext_text value)
    · have before : gateway.status = .active := by
        by_contra idle
        exact same (iff_of_false idle active)
      obtain ⟨other, hosts, found, known, serves, value⟩ :=
        exactly.mpr ⟨name, gateway.ipv4Address, hosted, ⟨gateway, here, before, rfl⟩, rfl⟩
      have differs : other ≠ name := by
        rintro rfl
        rw [setGateway_self] at known
        obtain rfl := Option.some.inj known
        exact active serves
      rw [setGateway_of_ne _ differs] at known
      exact ⟨other, mem_gatewayNames.mpr hosts, differs, found, known, serves, Ip.ext_text value⟩
  · exact fun harmless pool there => serving_of_synced (setGateway_synced synced here harmless) there

theorem checkGateway_ready (done : checkGateway site cluster s name .ready = some s') :
    ∃ gateway, s.gateways name = some gateway ∧
      ((gateway.status = .provisioned ∧ s' = s.setGateway name { gateway with status := .active }) ∨
        (gateway.status ≠ .provisioned ∧ s' = s)) := by
  obtain ⟨gateway, here, done⟩ := Option.bind_eq_some_iff.mp done
  refine ⟨gateway, here, ?_⟩
  split at done
  · rename_i idle
    exact Or.inr ⟨idle.1, (Option.some.inj done).symm⟩
  · rename_i running
    by_cases active : gateway.status = .active
    · rw [if_neg (not_not.mpr active)] at done
      refine Or.inr ⟨?_, (Option.some.inj done).symm⟩
      rw [active]
      exact nofun
    · rw [if_pos active] at done
      have provisioned : gateway.status = .provisioned := by
        by_contra differs
        exact running ⟨differs, active⟩
      exact Or.inl ⟨provisioned, (Option.some.inj done).symm⟩

theorem checkGateway_notReady {expired : Bool}
    (done : checkGateway site cluster s name (.notReady expired) = some s') :
    s' = s ∨ ((∃ gateway, s.gateways name = some gateway ∧ gateway.status = .provisioned) ∧
      setGatewayStatus site cluster s name .failed = some s') := by
  obtain ⟨gateway, here, done⟩ := Option.bind_eq_some_iff.mp done
  split at done
  · exact Or.inl (Option.some.inj done).symm
  · replace done : (if expired = true ∧ gateway.status = .provisioned then
        setGatewayStatus site cluster s name .failed else some s) = some s' := done
    by_cases late : expired = true ∧ gateway.status = .provisioned
    · rw [if_pos late] at done
      exact Or.inr ⟨⟨gateway, here, late.2⟩, done⟩
    · rw [if_neg late] at done
      exact Or.inl (Option.some.inj done).symm

theorem checkGateway_notReady_synced {expired : Bool} (synced : EgressSynced site cluster s)
    (done : checkGateway site cluster s name (.notReady expired) = some s') :
    EgressSynced site cluster s' := by
  rcases checkGateway_notReady done with rfl | ⟨-, failed⟩
  · exact synced
  · exact setGatewayStatus_synced synced failed

theorem afterGatewayProvision_eq (done : afterGatewayProvision site cluster s name health = some s') :
    ∃ gateway status, s.gateways name = some gateway ∧
      s' = s.setGateway name { gateway with status := status } ∧ (status = .active ↔ health = .ready) := by
  obtain ⟨gateway, here, done⟩ := Option.bind_eq_some_iff.mp done
  cases health with
  | ready =>
    obtain ⟨found, there, checked⟩ := checkGateway_ready done
    rw [setGateway_self] at there
    obtain rfl := Option.some.inj there
    rcases checked with ⟨-, rfl⟩ | ⟨differs, -⟩
    · rw [setGateway_setGateway]
      exact ⟨gateway, .active, here, rfl, iff_of_true rfl rfl⟩
    · exact absurd rfl differs
  | notReady expired =>
    rcases checkGateway_notReady done with rfl | ⟨-, failed⟩
    · exact ⟨gateway, .provisioned, here, rfl, iff_of_false nofun nofun⟩
    · obtain ⟨found, there, failed⟩ := Option.bind_eq_some_iff.mp failed
      rw [setGateway_self] at there
      obtain rfl := Option.some.inj there
      have idle : ¬ ((GatewayStatus.provisioned = .active) ≠ (GatewayStatus.failed = .active)) :=
        not_not.mpr (propext (iff_of_false nofun nofun))
      rw [if_neg idle] at failed
      obtain rfl := Option.some.inj failed
      rw [setGateway_setGateway]
      exact ⟨gateway, .failed, here, rfl, iff_of_false nofun nofun⟩

theorem setGatewayStatus_eq (synced : EgressSynced site cluster s)
    (done : setGatewayStatus site cluster s name status = some s') :
    ∃ gateway, s.gateways name = some gateway ∧ s'.pools = s.pools ∧
      s'.gateways = (s.setGateway name { gateway with status := status }).gateways := by
  obtain ⟨gateway, here, done⟩ := Option.bind_eq_some_iff.mp done
  refine ⟨gateway, here, ?_⟩
  split at done
  · have resynced := syncPools_resynced (fun pool there other there' same =>
      synced.named (mem_poolsOf.mp there).1 (mem_poolsOf.mp there').1 same) done
    exact ⟨resynced.pools, resynced.gateways⟩
  · obtain rfl := Option.some.inj done
    exact ⟨rfl, rfl⟩

theorem covered_setGateway (here : s.gateways name = some gateway) (pools : s'.pools = s.pools)
    (gateways : s'.gateways = (s.setGateway name { gateway with status := status }).gateways) :
    Covered s' name ↔ Covered s name := by
  rw [Covered, Covered, pools, gateways, setGateway_self, here]
  refine forall₃_congr fun pool _ _ => ?_
  simp only [Option.mem_def, Option.some.injEq, forall_eq']
  refine exists_congr fun other => and_congr_right fun _ => and_congr_right fun differs => ?_
  rw [setGateway_of_ne _ differs]

end Bare

/-! ### Runs -/

section Runs

/-- The gateway that a bare status write of the step starts or stops. -/
def toggled (s : State) : Action → Option String
  | .checkGateway name .ready =>
      if (s.gateways name).any fun gateway => gateway.status = .provisioned then some name else none
  | .afterGatewayUpgrade name .ready => some name
  | .afterGatewayProvision name health =>
      if (s.gateways name).any fun gateway => ¬ (gateway.status = .active ↔ health = .ready) then some name
      else none
  | _ => none

/-- **No bare write starts or stops a service that a pool has from this gateway alone.** -/
def recordsFollow (s : State) (action : Action) : Prop := ∀ name ∈ toggled s action, Covered s name

instance (s : State) (action : Action) : Decidable (recordsFollow s action) :=
  inferInstanceAs (Decidable (∀ name ∈ toggled s action, Covered s name))

variable {action : Action}

theorem checkGateway_follows {health : Health} (synced : EgressSynced site cluster s)
    (done : checkGateway site cluster s name health = some s') :
    (recordsFollow s (.checkGateway name health) → EgressSynced site cluster s') ∧
      (AllServing site cluster s' → recordsFollow s (.checkGateway name health)) := by
  cases health with
  | notReady expired => exact ⟨fun _ => checkGateway_notReady_synced synced done, fun _ => nofun⟩
  | ready =>
    obtain ⟨gateway, here, ⟨provisioned, rfl⟩ | ⟨differs, rfl⟩⟩ := checkGateway_ready done
    · have toggles : toggled s (.checkGateway name .ready) = some name := by
        simp [toggled, here, provisioned]
      refine ⟨fun follows => setGateway_synced synced here (Or.inr (follows name toggles)), ?_⟩
      intro serving other there
      obtain rfl := Option.some.inj (toggles.symm.trans there)
      refine ((setGateway_serving synced here).mp serving).resolve_left fun same => ?_
      rw [provisioned] at same
      exact nomatch same.mpr rfl
    · have stays : toggled s' (.checkGateway name .ready) = none := by
        simp [toggled, here, differs]
      refine ⟨fun _ => synced, fun _ other there => ?_⟩
      rw [stays] at there
      cases there

theorem afterGatewayUpgrade_follows {health : Health} (synced : EgressSynced site cluster s)
    (done : afterGatewayUpgrade site cluster s name health = some s') :
    (recordsFollow s (.afterGatewayUpgrade name health) → EgressSynced site cluster s') ∧
      (AllServing site cluster s' → recordsFollow s (.afterGatewayUpgrade name health)) := by
  obtain ⟨middle, set, checked⟩ := Option.bind_eq_some_iff.mp done
  have between := setGatewayStatus_synced synced set
  cases health with
  | notReady expired =>
    exact ⟨fun _ => checkGateway_notReady_synced between checked, fun _ => nofun⟩
  | ready =>
    obtain ⟨gateway, here, pools, gateways⟩ := setGatewayStatus_eq synced set
    have covered := covered_setGateway here pools gateways
    have known : middle.gateways name = some { gateway with status := .provisioned } := by
      rw [gateways, setGateway_self]
    obtain ⟨found, there, ⟨-, rfl⟩ | ⟨differs, -⟩⟩ := checkGateway_ready checked
    · refine ⟨fun follows => setGateway_synced between there (Or.inr (covered.mpr (follows name rfl))), ?_⟩
      intro serving other only
      obtain rfl := Option.some.inj only
      obtain rfl := Option.some.inj (known.symm.trans there)
      refine covered.mp (((setGateway_serving between there).mp serving).resolve_left ?_)
      exact fun same => nomatch same.mpr rfl
    · obtain rfl := Option.some.inj (known.symm.trans there)
      exact absurd rfl differs

theorem afterGatewayProvision_follows {health : Health} (synced : EgressSynced site cluster s)
    (done : afterGatewayProvision site cluster s name health = some s') :
    (recordsFollow s (.afterGatewayProvision name health) → EgressSynced site cluster s') ∧
      (AllServing site cluster s' → recordsFollow s (.afterGatewayProvision name health)) := by
  obtain ⟨gateway, status, here, rfl, active⟩ := afterGatewayProvision_eq done
  by_cases same : gateway.status = .active ↔ status = .active
  · refine ⟨fun _ => setGateway_synced synced here (Or.inl same), fun _ other there => ?_⟩
    have stays : toggled s (.afterGatewayProvision name health) = none := by
      simp [toggled, here, ← active, same]
    rw [stays] at there
    cases there
  · have toggles : toggled s (.afterGatewayProvision name health) = some name := by
      simp [toggled, here, ← active, same]
    refine ⟨fun follows => setGateway_synced synced here (Or.inr (follows name toggles)), ?_⟩
    intro serving other there
    obtain rfl := Option.some.inj (toggles.symm.trans there)
    exact ((setGateway_serving synced here).mp serving).resolve_left same

theorem step_synced (synced : EgressSynced site cluster s) (done : step site cluster s action = some s') :
    (recordsFollow s action → EgressSynced site cluster s') ∧
      (AllServing site cluster s' → recordsFollow s action) := by
  cases action with
  | insertNode name ipv4 ipv6 role enabled =>
    exact ⟨fun _ => synced.frame (insertNode_sameEgress done), fun _ => nofun⟩
  | saveNode name ipv4 ipv6 role enabled =>
    exact ⟨fun _ => synced.frame (saveNode_sameEgress done), fun _ => nofun⟩
  | deleteNode name => exact ⟨fun _ => synced.frame (deleteNode_sameEgress done), fun _ => nofun⟩
  | provisionNode name =>
    exact ⟨fun _ => synced.frame (provisionNode_sameEgress done), fun _ => nofun⟩
  | afterProvision name health =>
    exact ⟨fun _ => synced.frame (afterProvision_sameEgress done), fun _ => nofun⟩
  | afterProvisionFailed name exhausted =>
    exact ⟨fun _ => synced.frame (afterProvisionFailed_sameEgress done), fun _ => nofun⟩
  | upgradeNode name => exact ⟨fun _ => synced.frame (upgradeNode_sameEgress done), fun _ => nofun⟩
  | afterUpgrade name health =>
    exact ⟨fun _ => synced.frame (afterUpgrade_sameEgress done), fun _ => nofun⟩
  | afterUpgradeFailed name =>
    obtain ⟨node, -, rfl⟩ := Option.map_eq_some_iff.mp done
    exact ⟨fun _ => synced.frame (setNode_sameEgress _), fun _ => nofun⟩
  | checkNode name health =>
    exact ⟨fun _ => synced.frame (checkNode_sameEgress done), fun _ => nofun⟩
  | drainNode name => exact ⟨fun _ => synced.frame (drainNode_sameEgress done), fun _ => nofun⟩
  | restoreNode name health =>
    exact ⟨fun _ => synced.frame (restoreNode_sameEgress done), fun _ => nofun⟩
  | finishBootstrap health =>
    exact ⟨fun _ => synced.frame (finishBootstrap_sameEgress done), fun _ => nofun⟩
  | enableCluster enabled =>
    refine ⟨fun _ => synced.frame ?_, fun _ => nofun⟩
    rw [step] at done
    split at done
    · obtain rfl := Option.some.inj done
      exact ⟨rfl, rfl, fun _ => rfl⟩
    · split at done
      · obtain rfl := Option.some.inj done
        exact ⟨rfl, rfl, fun _ => rfl⟩
      · obtain rfl := Option.some.inj done
        exact SameEgress.refl s
  | insertGateway name ipv4 enabled =>
    exact ⟨fun _ => insertGateway_synced synced done, fun _ => nofun⟩
  | saveGateway name ipv4 enabled => exact ⟨fun _ => saveGateway_synced synced done, fun _ => nofun⟩
  | deleteGateway name => exact ⟨fun _ => deleteGateway_synced synced done, fun _ => nofun⟩
  | provisionGateway name => exact ⟨fun _ => setGatewayStatus_synced synced done, fun _ => nofun⟩
  | afterGatewayProvision name health => exact afterGatewayProvision_follows synced done
  | afterGatewayProvisionFailed name =>
    exact ⟨fun _ => setGatewayStatus_synced synced done, fun _ => nofun⟩
  | afterGatewayUpgrade name health => exact afterGatewayUpgrade_follows synced done
  | afterGatewayUpgradeFailed name =>
    exact ⟨fun _ => setGatewayStatus_synced synced done, fun _ => nofun⟩
  | checkGateway name health => exact checkGateway_follows synced done
  | savePool pool => exact ⟨fun _ => savePool_synced synced done, fun _ => nofun⟩
  | deletePool pool => exact ⟨fun _ => deletePool_synced synced done, fun _ => nofun⟩

variable {table : Table} {start : State}

theorem insertCluster_synced
    (fresh : ∀ pool, managedRows table.rows (poolOwner cluster pool) = [])
    (started : insertCluster site cluster table = some start) : EgressSynced site cluster start := by
  have empty : EgressSynced site cluster ⟨.pending, none, [], fun _ => none, [], table⟩ := by
    refine ⟨?_, nofun, nofun⟩
    intro pool row member
    rw [fresh] at member
    cases member
  exact empty.frame (syncSpfRecord_sameEgress started)

/-- **Every pool's hostname resolves to exactly the gateways that serve it**, in every run whose bare
status writes start and stop no service of a pool; and such a run goes on so exactly with the steps that
meet this. -/
theorem pool_resolves_to_serving
    (fresh : ∀ pool, managedRows table.rows (poolOwner cluster pool) = [])
    (started : insertCluster site cluster table = some start)
    (reached : Reaches (step site cluster) recordsFollow start s) :
    AllServing site cluster s ∧ ∀ action s', step site cluster s action = some s' →
      (AllServing site cluster s' ↔ recordsFollow s action) := by
  have synced : EgressSynced site cluster s :=
    reached.invariant (EgressSynced site cluster) (insertCluster_synced fresh started)
      fun here follows taken => (step_synced here taken).1 follows
  refine ⟨fun pool there => serving_of_synced synced there, fun action s' taken => ?_⟩
  obtain ⟨keeps, follows⟩ := step_synced synced taken
  exact ⟨follows, fun meets pool there => serving_of_synced (keeps meets) there⟩

/-! ### A cluster with one gateway -/

def gatewayIp : Ip := ⟨"192.0.2.1", by decide⟩

/-- A pool with one address, on the gateway `g1`. -/
def onePool : EgressIPPool where
  poolName := ⟨"p1", forall_mem_of_all (by decide), by decide +kernel⟩
  relayPort := 2525
  addresses := [⟨"g1.mail.eu.io", ⟨"198.51.100.1", by decide⟩,
    ⟨"e1", by decide, fun _ first => Option.some.inj first ▸ rfl⟩⟩]

/-- The gateway comes up, and the pool is made on it. -/
def poolMade : List Action :=
  [.insertGateway "g1.mail.eu.io" gatewayIp true,
    .provisionGateway "g1.mail.eu.io",
    .afterGatewayProvision "g1.mail.eu.io" .ready, .savePool onePool]

/-- The pool is made, and then its gateway is upgraded and comes back. -/
theorem poolMade_ends :
    ∃ start s s', insertCluster oneZone oneCluster noRows = some start ∧
      Reaches (step oneZone oneCluster) recordsFollow start s ∧ s.pools = [onePool] ∧
      (ownRecords oneZone oneCluster s onePool).map Row.value = [gatewayIp.text] ∧
      step oneZone oneCluster s (.afterGatewayUpgrade "g1.mail.eu.io" .ready) = some s' ∧ s'.pools = [onePool] ∧
      (ownRecords oneZone oneCluster s' onePool).map Row.value = [] ∧
      s'.gateways "g1.mail.eu.io" = some ⟨gatewayIp, .active, true⟩ := by
  have seen : (insertCluster oneZone oneCluster noRows).bind (fun start =>
      (run (step oneZone oneCluster) start poolMade).bind fun s =>
        (step oneZone oneCluster s (.afterGatewayUpgrade "g1.mail.eu.io" .ready)).map fun s' =>
          (decide (RunMeets (step oneZone oneCluster) recordsFollow start poolMade ∧
              s'.gateways "g1.mail.eu.io" = some ⟨gatewayIp, .active, true⟩), (s.pools, s'.pools),
            (ownRecords oneZone oneCluster s onePool).map Row.value,
            (ownRecords oneZone oneCluster s' onePool).map Row.value)) =
      some (true, ([onePool], [onePool]), [gatewayIp.text], []) := by decide +kernel
  obtain ⟨start, started, seen⟩ := Option.bind_eq_some_iff.mp seen
  obtain ⟨s, ends, seen⟩ := Option.bind_eq_some_iff.mp seen
  obtain ⟨s', upgraded, seen⟩ := Option.map_eq_some_iff.mp seen
  obtain ⟨decided, seen⟩ := Prod.mk.inj seen
  obtain ⟨meets, gateway⟩ := of_decide_eq_true decided
  obtain ⟨pools, values⟩ := Prod.mk.inj seen
  obtain ⟨pools, pools'⟩ := Prod.mk.inj pools
  obtain ⟨values, values'⟩ := Prod.mk.inj values
  exact ⟨start, s, s', started, reaches_of_run meets ends, pools, values, upgraded, pools', values', gateway⟩

theorem pool_resolves_to_serving_onePool :
    ∃ start s, insertCluster oneZone oneCluster noRows = some start ∧
      Reaches (step oneZone oneCluster) recordsFollow start s ∧ onePool ∈ s.pools ∧
      Serving oneZone oneCluster s onePool ∧
      (ownRecords oneZone oneCluster s onePool).map Row.value = [gatewayIp.text] := by
  obtain ⟨start, s, -, started, reached, pools, values, -⟩ := poolMade_ends
  have there : onePool ∈ s.pools := by
    rw [pools]
    exact List.mem_singleton_self _
  exact ⟨start, s, started, reached, there,
    (pool_resolves_to_serving (fun _ => rfl) started reached).1 onePool there, values⟩

/-- **A gateway that is back after its upgrade is in no record**: `set_status` takes its A record out of
the pool's hostname, and `check_gateway` makes it active again without a sync. -/
theorem upgraded_gateway_missing :
    ¬ ∀ (site : Site) (cluster : StalwartCluster) (table : Table) (start s : State),
      (∀ pool, managedRows table.rows (poolOwner cluster pool) = []) →
      insertCluster site cluster table = some start →
      Reaches (step site cluster) anyStep start s → AllServing site cluster s := by
  intro always
  obtain ⟨start, before, s, started, reached, -, -, upgraded, pools, none, gateway⟩ := poolMade_ends
  have serving := always oneZone oneCluster noRows start s (fun _ => rfl) started
    ((reached.mono fun _ _ _ => trivial).next trivial upgraded) onePool
    (by rw [pools]; exact List.mem_singleton_self _)
  have missing := (serving.serves gatewayIp.text).mpr
    ⟨"g1.mail.eu.io", by decide, _, gateway, rfl, rfl⟩
  rw [none] at missing
  cases missing

end Runs

end SuiteCloud.Mail.Cluster.Records
