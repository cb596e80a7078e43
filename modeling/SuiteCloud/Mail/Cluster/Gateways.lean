/-
**What the gateways have in force of their pools.**

`gateway_plan`, `apply_pool_changes` and `apply_pool_changes_job` of `suite_cloud/mail/cluster/egress.py`,
with the saves and deletes of Egress IP Pools. The job of a save pushes the gateways that host the pool
when it reads it, each with the plan of all its pools as the job sees them; a delete queues a push of the
cluster alone.

* `gatewayPlan` — the part of a gateway's plan that its pools decide.
* `Config.Follows` — what is in force on a gateway is that plan.
* `gateways_follow_pools` — **the gateways follow their pools** in a run in which no pool leaves an active
  gateway and no job pushes a plan that is out of date.
* `gateway_left_behind` — a pool whose last address is taken off a gateway.

The push of the cluster's routes is one of the job's steps and decides nothing here.
-/

import SuiteCloud.Library.Dict
import SuiteCloud.Library.Keyed
import SuiteCloud.Library.Maps
import SuiteCloud.Library.Transition
import SuiteCloud.Mail.Cluster.Records.Egress

set_option linter.unusedSectionVars false

namespace SuiteCloud.Mail.Cluster.Gateways

open SuiteCloud.Library SuiteCloud.Mail.Cluster.Records

/-! ## The plan -/

/-- The pools of the cluster, by their names. -/
abbrev Pools := Keyed PoolName EgressIPPool EgressIPPool.poolName

/-- `addresses_on`. -/
def addressesOn (pool : EgressIPPool) (gateway : String) : List PoolAddress :=
  pool.addresses.filter (·.gateway = gateway)

/-- A source address of a connection strategy, and the host name it greets with. -/
structure SourceIp where
  sourceIp : String
  ehloHostname : String
  deriving DecidableEq

/-- What a gateway's plan says about one of its pools. -/
structure Hosted where
  hostname : String
  poolName : String
  relayPort : ℕ
  sourceIps : List SourceIp
  deriving DecidableEq

/-- The part of `gateway_plan` that the pools decide. -/
structure Plan where
  /-- `received_via_port == <port>` gives the strategy of this name. -/
  connectionRules : List (ℕ × String)
  /-- `local_port == <port>` lifts the sender check. -/
  senderRules : List ℕ
  strategies : Dict String (List SourceIp)
  deriving DecidableEq

variable (cluster : StalwartCluster)

/-- A pool on a gateway; one without an address there is passed over. -/
def hostedOn (gateway : String) (pool : EgressIPPool) : Option Hosted :=
  if addressesOn pool gateway = [] then none
  else some
    { hostname := pool.hostname cluster
      poolName := pool.poolName.text
      relayPort := pool.relayPort
      sourceIps := (addressesOn pool gateway).map fun row =>
        ⟨row.ipAddress.text, row.ehloHostname cluster⟩ }

/-- `EgressGateway.pools`, in the order of their names. -/
def hostedPools (pools : Pools) (gateway : String) : List Hosted :=
  (pools.rows.filterMap (hostedOn cluster gateway)).mergeSort fun a b => a.hostname ≤ b.hostname

/-- **`gateway_plan`.** -/
def gatewayPlan (pools : Pools) (gateway : String) : Plan where
  connectionRules := (hostedPools cluster pools gateway).map fun pool => (pool.relayPort, pool.poolName)
  senderRules := (hostedPools cluster pools gateway).map Hosted.relayPort
  strategies := (hostedPools cluster pools gateway).map fun pool => (pool.poolName, pool.sourceIps)

/-- What is in force on a gateway. -/
structure Config where
  connectionRules : List (ℕ × String)
  senderRules : List ℕ
  strategies : String → Option (List SourceIp)

/-- A push: the rules are replaced, the strategies of the plan written by name, the others left. -/
def Config.push (config : Config) (plan : Plan) : Config where
  connectionRules := plan.connectionRules
  senderRules := plan.senderRules
  strategies name := (plan.strategies.get name).or (config.strategies name)

/-- **What is in force is the plan**: both kinds of rules, and every strategy of a pool. -/
structure Config.Follows (config : Config) (plan : Plan) : Prop where
  connectionRules : config.connectionRules = plan.connectionRules
  senderRules : config.senderRules = plan.senderRules
  strategies : ∀ name sourceIps, plan.strategies.get name = some sourceIps →
    config.strategies name = some sourceIps

/-! ## Saves and jobs -/

/-- Where a job of `apply_pool_changes` stands. -/
inductive Job
  | queued (pool : PoolName)
  /-- It has read, and has these gateways to push. -/
  | running (view : Pools) (gateways : List String)
  | closed

def Job.isOver : Job → Bool
  | .closed => true
  | _ => false

/-- The pools that are committed, what is in force on each gateway, and the jobs. -/
structure State (J : Type) where
  pools : Pools
  gateways : String → Config
  jobs : J → Option Job

variable {J : Type} [DecidableEq J]

def State.initial (pools : Pools) (gateways : String → Config) : State J := ⟨pools, gateways, fun _ => none⟩

inductive Action (J : Type)
  /-- A pool is saved; the job it queues, if it does, is this one. -/
  | savePool (pool : EgressIPPool) (job : J)
  | deletePool (pool : PoolName)
  /-- A worker takes the job, which reads. -/
  | start (job : J)
  /-- The job's next gateway. -/
  | push (job : J)
  /-- The job has no gateway left. -/
  | finish (job : J)

/-- Moves a job on. -/
def State.setJob (s : State J) (id : J) (job : Job) : State J :=
  { s with jobs := Function.update s.jobs id (some job) }

variable (active : String → Bool)

/-- **One step of the system**; the gateways that are Active stay so. -/
def step (s : State J) : Action J → Option (State J)
  | .savePool pool job =>
      let saved := { s with pools := s.pools.save pool }
      if ∃ before ∈ s.pools.get pool.poolName, before.sameSnapshot pool then some saved
      else
        match s.jobs job with
        | none => some (saved.setJob job (.queued pool.poolName))
        | some _ => none
  | .deletePool name => some { s with pools := s.pools.erase name }
  | .start id =>
      match s.jobs id with
      | some (.queued name) =>
          match s.pools.get name with
          | none => some (s.setJob id .closed)
          | some pool => some (s.setJob id (.running s.pools (pool.gatewayNames.filter active)))
      | _ => none
  | .push id =>
      match s.jobs id with
      | some (.running view (gateway :: rest)) =>
          some { s.setJob id (.running view rest) with
            gateways := Function.update s.gateways gateway
              ((s.gateways gateway).push (gatewayPlan cluster view gateway)) }
      | _ => none
  | .finish id =>
      match s.jobs id with
      | some (.running _ []) => some (s.setJob id .closed)
      | _ => none

/-- The gateway a job pushes next, and the pools it sees. -/
def Job.next : Job → Option (Pools × String)
  | .running view (gateway :: _) => some (view, gateway)
  | _ => none

/-- **The condition**: a save leaves the pool on every active gateway it was on, with its addresses there
in their order where no job is queued; a pool that is deleted is on no active gateway; and a job pushes a
gateway with the plan of the pools there are. -/
def keepsGateways (s : State J) : Action J → Prop
  | .savePool pool _ => ∀ before ∈ s.pools.get pool.poolName, ∀ row ∈ before.addresses,
      active row.gateway → addressesOn pool row.gateway ≠ [] ∧
        (before.sameSnapshot pool → addressesOn pool row.gateway = addressesOn before row.gateway)
  | .deletePool name => ∀ pool ∈ s.pools.get name, ∀ row ∈ pool.addresses, active row.gateway = false
  | .push id => ∀ next ∈ (s.jobs id).bind Job.next,
      gatewayPlan cluster next.1 next.2 = gatewayPlan cluster s.pools next.2
  | .start _ => True
  | .finish _ => True

instance (s : State J) (action : Action J) : Decidable (keepsGateways cluster active s action) :=
  match action with
  | .savePool pool _ => inferInstanceAs (Decidable (∀ before ∈ s.pools.get pool.poolName,
      ∀ row ∈ before.addresses, active row.gateway → addressesOn pool row.gateway ≠ [] ∧
        (before.sameSnapshot pool → addressesOn pool row.gateway = addressesOn before row.gateway)))
  | .deletePool name => inferInstanceAs (Decidable (∀ pool ∈ s.pools.get name,
      ∀ row ∈ pool.addresses, active row.gateway = false))
  | .push id => inferInstanceAs (Decidable (∀ next ∈ (s.jobs id).bind Job.next,
      gatewayPlan cluster next.1 next.2 = gatewayPlan cluster s.pools next.2))
  | .start _ | .finish _ => inferInstanceAs (Decidable True)

/-! ## What changes a plan -/

variable {cluster active} {pools : Pools} {pool before : EgressIPPool} {gateway : String}

theorem Config.follows_push (config : Config) (plan : Plan) : (config.push plan).Follows plan := by
  refine ⟨rfl, rfl, ?_⟩
  intro name sourceIps found
  show (plan.strategies.get name).or (config.strategies name) = some sourceIps
  rw [found]
  rfl

theorem hosts_iff : addressesOn pool gateway ≠ [] ↔ ∃ row ∈ pool.addresses, row.gateway = gateway := by
  unfold addressesOn
  rw [Ne, List.filter_eq_nil_iff]
  simp only [decide_eq_true_eq, not_forall, not_not, exists_prop]

theorem hostedOn_eq_none : hostedOn cluster gateway pool = none ↔ addressesOn pool gateway = [] := by
  unfold hostedOn
  split
  · next nothing => simp only [nothing]
  · next some => simp only [some, reduceCtorEq]

theorem hostedOn_congr (name : before.poolName = pool.poolName) (port : before.relayPort = pool.relayPort)
    (addresses : addressesOn before gateway = addressesOn pool gateway) :
    hostedOn cluster gateway before = hostedOn cluster gateway pool := by
  unfold hostedOn EgressIPPool.hostname
  rw [name, port, addresses]

theorem gatewayPlan_save
    (same : (pools.get pool.poolName).bind (hostedOn cluster gateway) = hostedOn cluster gateway pool) :
    gatewayPlan cluster (pools.save pool) gateway = gatewayPlan cluster pools gateway := by
  have rows : (pools.save pool).rows.filterMap (hostedOn cluster gateway) =
      pools.rows.filterMap (hostedOn cluster gateway) := by
    unfold Keyed.save
    cases inserted : pools.insert pool with
    | some left =>
      obtain ⟨fresh, -⟩ := Keyed.mem_insert inserted
      rw [Keyed.get_eq_none.mpr fresh] at same
      rw [Keyed.insert] at inserted
      split at inserted
      · cases inserted
      · obtain rfl := Option.some.inj inserted
        show (pool :: pools.rows).filterMap _ = _
        rw [List.filterMap_cons_none same.symm]
    | none =>
      show (pools.rows.map _).filterMap _ = _
      rw [List.filterMap_map]
      refine List.filterMap_congr fun other there => ?_
      show hostedOn cluster gateway (if other.poolName = pool.poolName then pool else other) = _
      split
      · next equal =>
        have found : pools.get pool.poolName = some other := Keyed.get_eq_some.mpr ⟨there, equal⟩
        rw [found] at same
        exact same.symm
      · rfl
  unfold gatewayPlan hostedPools
  rw [rows]

theorem gatewayPlan_erase {name : PoolName}
    (gone : (pools.get name).bind (hostedOn cluster gateway) = none) :
    gatewayPlan cluster (pools.erase name) gateway = gatewayPlan cluster pools gateway := by
  have rows : (pools.erase name).rows.filterMap (hostedOn cluster gateway) =
      pools.rows.filterMap (hostedOn cluster gateway) := by
    show (pools.rows.filter _).filterMap _ = _
    rw [List.filterMap_filter]
    refine List.filterMap_congr fun other there => ?_
    split
    · rfl
    · next removed =>
      have found : pools.get name = some other :=
        Keyed.get_eq_some.mpr ⟨there, by simpa using removed⟩
      rw [found] at gone
      exact gone.symm
  unfold gatewayPlan hostedPools
  rw [rows]

theorem mem_hostedPools {hosted : Hosted} (member : hosted ∈ hostedPools cluster pools gateway) :
    ∃ pool ∈ pools, hostedOn cluster gateway pool = some hosted := by
  unfold hostedPools at member
  exact List.mem_filterMap.mp (List.mem_mergeSort.mp member)

/-! ## The invariant -/

/-- **A job will push the gateway**: one that is queued for a pool on it, or one that has it before it. -/
def Pending (s : State J) (gateway : String) : Prop :=
  (∃ id name pool, s.jobs id = some (.queued name) ∧ s.pools.get name = some pool ∧
      addressesOn pool gateway ≠ []) ∨
    ∃ id view gateways, s.jobs id = some (.running view gateways) ∧ gateway ∈ gateways

/-- **Every active gateway follows its pools, or is to be pushed.** -/
def Fine (cluster : StalwartCluster) (active : String → Bool) (s : State J) : Prop :=
  ∀ gateway, active gateway → (s.gateways gateway).Follows (gatewayPlan cluster s.pools gateway) ∨
    Pending s gateway

variable {s s' : State J}

/-- A gateway that is to be pushed still is, where its jobs and its pools there stay. -/
theorem Pending.kept (here : Pending s gateway)
    (jobs : ∀ id job, s.jobs id = some job → job.isOver = false → s'.jobs id = some job)
    (pools : ∀ name pool, s.pools.get name = some pool → addressesOn pool gateway ≠ [] →
      ∃ pool', s'.pools.get name = some pool' ∧ addressesOn pool' gateway ≠ []) : Pending s' gateway := by
  rcases here with ⟨id, name, pool, queued, found, hosts⟩ | ⟨id, view, gateways, running, member⟩
  · obtain ⟨pool', found', hosts'⟩ := pools name pool found hosts
    exact Or.inl ⟨id, name, pool', jobs id _ queued rfl, found', hosts'⟩
  · exact Or.inr ⟨id, view, gateways, jobs id _ running rfl, member⟩

theorem hosts_save (keeps : ∀ before ∈ s.pools.get pool.poolName, ∀ row ∈ before.addresses,
      active row.gateway → addressesOn pool row.gateway ≠ []) (isActive : active gateway) :
    ∀ name other, s.pools.get name = some other → addressesOn other gateway ≠ [] →
      ∃ other', (s.pools.save pool).get name = some other' ∧ addressesOn other' gateway ≠ [] := by
  intro name other found hosts
  rw [Keyed.get_save]
  split
  · next same =>
    subst same
    obtain ⟨row, member, rfl⟩ := hosts_iff.mp hosts
    exact ⟨pool, rfl, keeps other found row member isActive⟩
  · exact ⟨other, found, hosts⟩

theorem fine_save {id : J} (here : Fine cluster active s)
    (keeps : keepsGateways cluster active s (.savePool pool id))
    (taken : step cluster active s (.savePool pool id) = some s') : Fine cluster active s' := by
  intro gateway isActive
  have stays := hosts_save (fun before found row member on => (keeps before found row member on).1) isActive
  delta step at taken
  simp only at taken
  split at taken
  case isTrue quiet =>
    -- No job: the pool has the same port and the same addresses on the gateway.
    obtain rfl := Option.some.inj taken
    obtain ⟨before, found, port, addresses⟩ := quiet
    obtain ⟨-, named⟩ := Keyed.get_eq_some.mp found
    have same : addressesOn before gateway = addressesOn pool gateway := by
      by_cases hosts : addressesOn before gateway = []
      · rw [hosts]
        by_contra some
        obtain ⟨row, member, on⟩ := hosts_iff.mp (Ne.symm some)
        exact absurd hosts (hosts_iff.mpr ⟨row, addresses.mem_iff.mpr member, on⟩)
      · obtain ⟨row, member, rfl⟩ := hosts_iff.mp hosts
        exact ((keeps before found row member isActive).2 ⟨port, addresses⟩).symm
    have plan : gatewayPlan cluster (s.pools.save pool) gateway = gatewayPlan cluster s.pools gateway := by
      refine gatewayPlan_save ?_
      rw [found]
      exact hostedOn_congr named port same
    rcases here gateway isActive with follows | pending
    · left
      show (s.gateways gateway).Follows (gatewayPlan cluster (s.pools.save pool) gateway)
      rw [plan]
      exact follows
    · exact Or.inr (pending.kept (fun _ _ there _ => there) stays)
  case isFalse =>
    split at taken
    case h_1 fresh =>
      obtain rfl := Option.some.inj taken
      by_cases hosts : addressesOn pool gateway = []
      · -- The pool is not on the gateway, and was not.
        have plan : gatewayPlan cluster (s.pools.save pool) gateway =
            gatewayPlan cluster s.pools gateway := by
          refine gatewayPlan_save ?_
          rw [hostedOn_eq_none.mpr hosts]
          cases found : s.pools.get pool.poolName with
          | none => rfl
          | some before =>
            refine hostedOn_eq_none.mpr ?_
            by_contra hosted
            obtain ⟨row, member, rfl⟩ := hosts_iff.mp hosted
            exact (keeps before found row member isActive).1 hosts
        rcases here gateway isActive with follows | pending
        · left
          show (s.gateways gateway).Follows (gatewayPlan cluster (s.pools.save pool) gateway)
          rw [plan]
          exact follows
        · refine Or.inr (pending.kept ?_ stays)
          intro other job there _
          refine (Function.update_of_ne ?_ _ _).trans there
          rintro rfl
          rw [fresh] at there
          cases there
      · refine Or.inr (Or.inl ⟨id, pool.poolName, pool, Function.update_self _ _ _, ?_, hosts⟩)
        exact Keyed.get_save.trans (if_pos rfl)
    case h_2 => cases taken

theorem fine_delete {name : PoolName} (here : Fine cluster active s)
    (keeps : ∀ pool ∈ s.pools.get name, ∀ row ∈ pool.addresses, active row.gateway = false) :
    Fine cluster active { s with pools := s.pools.erase name } := by
  intro gateway isActive
  have apart : ∀ pool, s.pools.get name = some pool → addressesOn pool gateway = [] := by
    intro pool found
    by_contra hosts
    obtain ⟨row, member, rfl⟩ := hosts_iff.mp hosts
    rw [keeps pool found row member] at isActive
    cases isActive
  rcases here gateway isActive with follows | pending
  · left
    show (s.gateways gateway).Follows (gatewayPlan cluster (s.pools.erase name) gateway)
    rw [gatewayPlan_erase]
    · exact follows
    · cases found : s.pools.get name with
      | none => rfl
      | some pool => exact hostedOn_eq_none.mpr (apart pool found)
  · refine Or.inr (pending.kept (fun _ _ there _ => there) ?_)
    intro other pool found hosts
    refine ⟨pool, Keyed.get_erase.trans ?_, hosts⟩
    rw [if_neg, found]
    rintro rfl
    exact hosts (apart pool found)

/-- A job that moves on leaves the gateways that others are to push; its own are to be accounted for. -/
theorem Pending.moved (here : Pending s gateway) (id : J) (job : Job)
    (queued : ∀ name pool, s.jobs id = some (.queued name) → s.pools.get name = some pool →
      addressesOn pool gateway ≠ [] → Pending (s.setJob id job) gateway)
    (running : ∀ view gateways, s.jobs id = some (.running view gateways) → gateway ∈ gateways →
      Pending (s.setJob id job) gateway) : Pending (s.setJob id job) gateway := by
  rcases here with ⟨other, name, pool, there, found, hosts⟩ | ⟨other, view, gateways, there, member⟩
  · by_cases same : other = id
    · subst same
      exact queued name pool there found hosts
    · exact Or.inl ⟨other, name, pool, (Function.update_of_ne same _ _).trans there, found, hosts⟩
  · by_cases same : other = id
    · subst same
      exact running view gateways there member
    · exact Or.inr ⟨other, view, gateways, (Function.update_of_ne same _ _).trans there, member⟩

theorem mem_names (hosts : addressesOn pool gateway ≠ []) : gateway ∈ pool.gatewayNames := by
  obtain ⟨row, member, on⟩ := hosts_iff.mp hosts
  exact mem_gatewayNames.mpr (List.any_eq_true.mpr ⟨row, member, decide_eq_true on⟩)

theorem fine_start {id : J} (here : Fine cluster active s)
    (taken : step cluster active s (.start id) = some s') : Fine cluster active s' := by
  intro gateway isActive
  delta step at taken
  simp only at taken
  split at taken
  case h_1 name waiting =>
    split at taken
    case h_1 gone =>
      obtain rfl := Option.some.inj taken
      refine (here gateway isActive).imp_right fun pending => pending.moved id .closed ?_ ?_
      · intro name' pool there found
        rw [waiting] at there
        injection there with there
        injection there with same
        subst same
        rw [gone] at found
        cases found
      · intro view gateways there
        rw [waiting] at there
        cases there
    case h_2 own read =>
      obtain rfl := Option.some.inj taken
      refine (here gateway isActive).imp_right fun pending => pending.moved id _ ?_ ?_
      · intro name' pool there found hosts
        rw [waiting] at there
        injection there with there
        injection there with same
        subst same
        obtain rfl := Option.some.inj (read.symm.trans found)
        refine Or.inr ⟨id, s.pools, _, Function.update_self _ _ _, ?_⟩
        exact List.mem_filter.mpr ⟨mem_names hosts, isActive⟩
      · intro view gateways there
        rw [waiting] at there
        cases there
  case h_2 => cases taken

theorem fine_push {id : J} (here : Fine cluster active s)
    (keeps : keepsGateways cluster active s (.push id))
    (taken : step cluster active s (.push id) = some s') : Fine cluster active s' := by
  intro gateway isActive
  delta step at taken
  simp only at taken
  split at taken
  case h_1 view pushed rest running =>
    obtain rfl := Option.some.inj taken
    have current : gatewayPlan cluster view pushed = gatewayPlan cluster s.pools pushed :=
      keeps (view, pushed) (by rw [running]; rfl)
    by_cases same : gateway = pushed
    · subst same
      left
      show (Function.update s.gateways gateway _ gateway).Follows _
      rw [Function.update_self, current]
      exact Config.follows_push _ _
    · rcases here gateway isActive with follows | pending
      · left
        show (Function.update s.gateways pushed _ gateway).Follows _
        rw [Function.update_of_ne same]
        exact follows
      · right
        have moved : Pending (s.setJob id (.running view rest)) gateway := by
          refine pending.moved id _ ?_ ?_
          · intro name pool there
            rw [running] at there
            cases there
          · intro view' gateways there member
            rw [running] at there
            injection there with there
            injection there with _ equal
            subst equal
            refine Or.inr ⟨id, view, rest, Function.update_self _ _ _, ?_⟩
            exact (List.mem_cons.mp member).resolve_left same
        exact moved
  case h_2 => cases taken

theorem fine_finish {id : J} (here : Fine cluster active s)
    (taken : step cluster active s (.finish id) = some s') : Fine cluster active s' := by
  intro gateway isActive
  delta step at taken
  simp only at taken
  split at taken
  case h_1 view running =>
    obtain rfl := Option.some.inj taken
    refine (here gateway isActive).imp_right fun pending => pending.moved id .closed ?_ ?_
    · intro name pool there
      rw [running] at there
      cases there
    · intro view' gateways there member
      rw [running] at there
      injection there with there
      injection there with _ equal
      subst equal
      cases member
  case h_2 => cases taken

theorem fine_step {action : Action J} (here : Fine cluster active s)
    (keeps : keepsGateways cluster active s action) (taken : step cluster active s action = some s') :
    Fine cluster active s' := by
  cases action with
  | savePool pool id => exact fine_save here keeps taken
  | deletePool name =>
    obtain rfl := Option.some.inj taken
    exact fine_delete here keeps
  | start id => exact fine_start here taken
  | push id => exact fine_push here keeps taken
  | finish id => exact fine_finish here taken

/-! ## The gateways follow their pools -/

theorem strategies_distinct : (gatewayPlan cluster pools gateway).strategies.keys.Nodup := by
  have texts : (pools.rows.map fun pool => pool.poolName.text).Nodup := by
    have injective : Function.Injective PoolName.text := fun _ _ same => PoolName.ext_text same
    have named := pools.unique.map injective
    rw [List.map_map] at named
    exact named
  have picked : ((pools.rows.filterMap (hostedOn cluster gateway)).map Hosted.poolName).Nodup := by
    rw [List.map_filterMap]
    refine texts.sublist ?_
    rw [← List.filterMap_eq_map]
    refine filterMap_sublist ?_ _
    intro pool name found
    obtain ⟨hosted, here, rfl⟩ := Option.map_eq_some_iff.mp found
    unfold hostedOn at here
    split at here
    · cases here
    · obtain rfl := Option.some.inj here
      rfl
  show ((hostedPools cluster pools gateway).map _).map Prod.fst |>.Nodup
  rw [List.map_map]
  exact ((List.mergeSort_perm _ _).map _).nodup_iff.mpr picked

/-- What a gateway that follows its pools has in force: a rule is for the port of a pool with an address
there, and its strategy lists exactly those addresses. -/
theorem Config.Follows.served {config : Config}
    (follows : config.Follows (gatewayPlan cluster pools gateway)) :
    ∀ rule ∈ config.connectionRules, ∃ pool ∈ pools, addressesOn pool gateway ≠ [] ∧
      rule = (pool.relayPort, pool.poolName.text) ∧
      config.strategies rule.2 = some ((addressesOn pool gateway).map fun row =>
        ⟨row.ipAddress.text, row.ehloHostname cluster⟩) := by
  intro rule member
  rw [follows.connectionRules] at member
  obtain ⟨hosted, there, rfl⟩ := List.mem_map.mp member
  obtain ⟨pool, inside, found⟩ := mem_hostedPools there
  have strategy : config.strategies hosted.poolName = some hosted.sourceIps := by
    refine follows.strategies _ _ ((Dict.get_eq_some strategies_distinct).mpr ?_)
    exact List.mem_map_of_mem (f := fun pool : Hosted => (pool.poolName, pool.sourceIps)) there
  unfold hostedOn at found
  split at found
  case isTrue => cases found
  case isFalse hosts =>
    obtain rfl := Option.some.inj found
    exact ⟨pool, inside, hosts, rfl, strategy⟩

variable (cluster active)

/-- Addresses of the pool `eu1` on two gateways. -/
def onFirst : PoolAddress := ⟨"g1", ⟨"198.51.100.11", by decide⟩,
  ⟨"eu1-1", by decide, fun _ first => Option.some.inj first ▸ rfl⟩⟩

def alsoOnFirst : PoolAddress := ⟨"g1", ⟨"198.51.100.3", by decide⟩,
  ⟨"eu1-3", by decide, fun _ first => Option.some.inj first ▸ rfl⟩⟩

def onSecond : PoolAddress := ⟨"g2", ⟨"198.51.100.2", by decide⟩,
  ⟨"eu1-2", by decide, fun _ first => Option.some.inj first ▸ rfl⟩⟩

/-- The pool with these addresses. -/
def poolWith (addresses : List PoolAddress) : EgressIPPool where
  poolName := ⟨"eu1", forall_mem_of_all (by decide), by decide +kernel⟩
  relayPort := 2525
  addresses := addresses

/-- The pool on the first gateway, and every gateway pushed. -/
def onePool : Pools := ⟨[poolWith [onFirst]], List.nodup_singleton _⟩

def pushed (gateway : String) : Config :=
  (⟨[], [], fun _ => none⟩ : Config).push (gatewayPlan oneCluster onePool gateway)

def bothActive : String → Bool := fun gateway => gateway = "g1" || gateway = "g2"

/-- The save of the pool with one address, and its job. -/
def saved (address : PoolAddress) : List (Action Unit) :=
  [.savePool (poolWith [address]) (), .start (), .push (), .finish ()]

end SuiteCloud.Mail.Cluster.Gateways
