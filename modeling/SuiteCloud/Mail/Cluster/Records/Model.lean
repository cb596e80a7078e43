/-
**A cluster's nodes, gateways and pools, and the DNS Records that follow them.**

`suite_cloud/mail/cluster/dns.py`, `bootstrap.py`, the gateway half of `egress.py`, and the Stalwart
Node, Egress Gateway and Egress IP Pool documents. Every operation is one transaction that completes;
where the code raises it is `none`. The answers of the servers (`Health`) and the choices of operators
are in the actions. A poll of the pending nodes or gateways is a check of each, committed on its own.

Addresses and names are as `validate` leaves them, so what they can be is in their types.
-/

import Mathlib.Logic.Function.Basic
import SuiteCloud.Dns.Reconcile
import SuiteCloud.Library.Maps
import SuiteCloud.Library.Transition

namespace SuiteCloud.Mail.Cluster.Records

open SuiteCloud.Library SuiteCloud.Dns

/-! ## Documents -/

/-- An address as `validate_ip` returns it. -/
structure Ip where
  text : String
  trimmed : strip text = text
  deriving DecidableEq

theorem Ip.ext_text {a b : Ip} (same : a.text = b.text) : a = b := by
  rcases a with ⟨text, trimmed⟩
  rcases b with ⟨text', trimmed'⟩
  rw [Ip.mk.injEq]
  exact same

/-- An address with a colon is an IPv6 one. -/
def Ip.isIpv6 (ip : Ip) : Bool := ip.text.toList.contains ':'

structure StalwartCluster where
  name : String
  /-- The region's label, as `next_cluster_label` gives it. -/
  label : String
  dnsZone : String
  /-- An embedded store: the cluster lives on one node. -/
  singleNode : Bool
  unspaced : ∀ c ∈ label.toList, isSpace c = false
  zoned : dnsZone ≠ ""

/-- The cluster's host in its zone. -/
def StalwartCluster.host (cluster : StalwartCluster) : String := "mail." ++ cluster.label

def StalwartCluster.hostname (cluster : StalwartCluster) : String :=
  cluster.host ++ "." ++ cluster.dnsZone

def StalwartCluster.defaultDomain (cluster : StalwartCluster) : String := cluster.hostname

inductive ClusterStatus
  | pending
  | bootstrapping
  | active
  | failed
  | disabled
  deriving DecidableEq

inductive NodeStatus
  | pending
  | provisioning
  | provisioned
  | active
  | draining
  | failed
  | disabled
  deriving DecidableEq

inductive Role
  | full
  | frontend
  | outbound
  deriving DecidableEq

structure StalwartNode where
  /-- Its host name. -/
  name : String
  ipv4Address : Ip
  ipv6Address : Option Ip
  status : NodeStatus
  enabled : Bool
  role : Role
  inIngressDns : Bool
  isBootstrapNode : Bool
  deriving DecidableEq

inductive GatewayStatus
  | pending
  | provisioning
  | provisioned
  | active
  | failed
  | disabled
  deriving DecidableEq

structure EgressGateway where
  ipv4Address : Ip
  status : GatewayStatus
  enabled : Bool
  deriving DecidableEq

/-- `POOL_NAME`. -/
structure PoolName where
  text : String
  plain : ∀ c ∈ text.toList, ('a' ≤ c ∧ c ≤ 'z') ∨ ('0' ≤ c ∧ c ≤ '9')
  short : 1 ≤ text.length ∧ text.length ≤ 8
  deriving DecidableEq

theorem PoolName.ext_text : ∀ {a b : PoolName}, a.text = b.text → a = b
  | ⟨_, _, _⟩, ⟨_, _, _⟩, rfl => rfl

/-- The one label an EHLO host name has before the cluster's domain. -/
structure EhloLabel where
  text : String
  single : '.' ∉ text.toList
  trimmed : ∀ c ∈ text.toList.head?, isSpace c = false
  deriving DecidableEq

structure PoolAddress where
  gateway : String
  ipAddress : Ip
  ehlo : EhloLabel
  deriving DecidableEq

structure EgressIPPool where
  poolName : PoolName
  relayPort : ℕ
  addresses : List PoolAddress
  deriving DecidableEq

/-- `gateway_names`. -/
def EgressIPPool.gatewayNames (pool : EgressIPPool) : List String :=
  ((pool.addresses.map PoolAddress.gateway).mergeSort fun a b => a ≤ b).eraseDups

/-- `EgressIPPool.snapshot` of the two is the same; it sorts the addresses. -/
def EgressIPPool.sameSnapshot (before pool : EgressIPPool) : Prop :=
  before.relayPort = pool.relayPort ∧ before.addresses.Perm pool.addresses

instance (before pool : EgressIPPool) : Decidable (before.sameSnapshot pool) :=
  inferInstanceAs (Decidable (_ ∧ _))

structure State where
  clusterStatus : ClusterStatus
  bootstrapNode : Option String
  nodes : List StalwartNode
  gateways : String → Option EgressGateway
  pools : List EgressIPPool
  table : Table

variable (site : Site) (cluster : StalwartCluster)

def EgressIPPool.hostname (pool : EgressIPPool) : String :=
  pool.poolName.text ++ ".out" ++ "." ++ cluster.defaultDomain

def PoolAddress.ehloHostname (address : PoolAddress) : String :=
  address.ehlo.text ++ "." ++ cluster.defaultDomain

/-! ## The records -/

def clusterOwner : Owner := ⟨"Stalwart Cluster", cluster.name⟩

def nodeOwner (name : String) : Owner := ⟨"Stalwart Node", name⟩

def gatewayOwner (name : String) : Owner := ⟨"Egress Gateway", name⟩

def poolOwner (pool : EgressIPPool) : Owner := ⟨"Egress IP Pool", pool.hostname cluster⟩

theorem clusterOwner_kind : (clusterOwner cluster).doctype ≠ "Egress IP Pool" :=
  show "Stalwart Cluster" ≠ "Egress IP Pool" by decide

theorem nodeOwner_kind (name : String) : (nodeOwner name).doctype ≠ "Egress IP Pool" :=
  show "Stalwart Node" ≠ "Egress IP Pool" by decide

theorem gatewayOwner_kind (name : String) : (gatewayOwner name).doctype ≠ "Egress IP Pool" :=
  show "Egress Gateway" ≠ "Egress IP Pool" by decide

/-- `address_records`. -/
def addressRecords (fqdn : String) (ipv4 ipv6 : Option Ip) (category : Category) :
    Option (List Desired) := do
  let host ← relativeHost fqdn cluster.dnsZone
  let a := ipv4.toList.map fun ip : Ip => ({
    place := ⟨cluster.dnsZone, host, .a⟩, value := ip.text, category := category } : Desired)
  let aaaa := ipv6.toList.map fun ip : Ip => ({
    place := ⟨cluster.dnsZone, host, .aaaa⟩, value := ip.text, category := category } : Desired)
  return a ++ aaaa

/-- `node_records`. -/
def nodeRecords (node : StalwartNode) (includeIngress : Bool) : Option (List Desired) := do
  let own ← addressRecords cluster node.name (some node.ipv4Address) node.ipv6Address .node
  if includeIngress then
    let ingress ←
      addressRecords cluster cluster.hostname (some node.ipv4Address) node.ipv6Address .ingress
    return own ++ ingress
  else return own

/-- `spf_include`. -/
def spfInclude : String := "spf." ++ cluster.defaultDomain

/-- `" ".join(["v=spf1", *mechanisms, "-all"])`. -/
def spfText (mechanisms : List String) : String :=
  " ".intercalate (["v=spf1"] ++ mechanisms ++ ["-all"])

/-- `gateway_records`. -/
def gatewayRecords (name : String) (gateway : EgressGateway) : Option (List Desired) := do
  let own ← addressRecords cluster name (some gateway.ipv4Address) none .egress
  let host ← relativeHost name cluster.dnsZone
  return own ++ [{
    place := ⟨cluster.dnsZone, host, .txt⟩
    value := spfText ["include:" ++ spfInclude cluster]
    category := .spf }]

/-- `pool_records`. -/
def poolRecords (s : State) (pool : EgressIPPool) : Option (List Desired) := do
  let serving ← collect (fun name => do
    let gateway ← s.gateways name
    if gateway.status ≠ .active then return []
    else addressRecords cluster (pool.hostname cluster) (some gateway.ipv4Address) none .egress)
    pool.gatewayNames
  let ehlo ← collect (fun row : PoolAddress =>
    if row.ipAddress.isIpv6 then
      addressRecords cluster (row.ehloHostname cluster) none (some row.ipAddress) .egress
    else addressRecords cluster (row.ehloHostname cluster) (some row.ipAddress) none .egress)
    pool.addresses
  return serving ++ ehlo

/-- The statuses of the nodes that may send. -/
def NodeStatus.sends : NodeStatus → Bool
  | .provisioned => true
  | .active => true
  | .draining => true
  | _ => false

def StalwartNode.addresses (node : StalwartNode) : List Ip :=
  node.ipv4Address :: node.ipv6Address.toList

/-- `sending_ips`. -/
def sendingIps (s : State) : List Ip :=
  let nodes := (s.nodes.filter fun node => node.status.sends).flatMap StalwartNode.addresses
  let pools := s.pools.flatMap fun pool => pool.addresses.map PoolAddress.ipAddress
  (Dict.ofList ((nodes ++ pools).map fun ip => (ip, ()))).keys

def Ip.mechanism (ip : Ip) : String := if ip.isIpv6 then "ip6:" ++ ip.text else "ip4:" ++ ip.text

def spfTextLimit : ℕ := 255

/-- One turn of the loop that fills the chunks: those before the last, and the last. -/
def addMechanism (chunks : List (List String) × List String) (mechanism : String) :
    List (List String) × List String :=
  if chunks.2 ≠ [] ∧ spfTextLimit < (spfText (chunks.2 ++ [mechanism])).length then
    (chunks.1 ++ [chunks.2], [mechanism])
  else (chunks.1, chunks.2 ++ [mechanism])

def spfChunks (mechanisms : List String) : List (List String) :=
  let chunks := mechanisms.foldl addMechanism ([], [])
  chunks.1 ++ [chunks.2]

/-- The include target's children: `spf1.<zone>`, `spf2.<zone>`, ... -/
def spfChildren (base : String) (chunks : List (List String)) : List (String × List String) :=
  chunks.mapIdx fun i chunk => ("spf" ++ toString (i + 1) ++ "." ++ base, chunk)

/-- `include_host.split(".", 1)[1]`. -/
def afterFirstDot (text : String) : String :=
  String.ofList ((text.toList.dropWhile fun c => c ≠ '.').drop 1)

/-- `spf_texts`. -/
def spfTexts (includeHost : String) (mechanisms : List String) : Option (List (String × String)) :=
  if (spfText mechanisms).length ≤ spfTextLimit then some [(includeHost, spfText mechanisms)]
  else
    let children := spfChildren (afterFirstDot includeHost) (spfChunks mechanisms)
    let parent := spfText (children.map fun child => "include:" ++ child.1)
    if spfTextLimit < parent.length then none
    else some ((includeHost, parent) :: children.map fun child => (child.1, spfText child.2))

/-- `spf_records`, for the addresses that send. -/
def spfRecords (ips : List Ip) : Option (List Desired) := do
  let texts ← spfTexts (spfInclude cluster) (ips.map Ip.mechanism)
  let records ← collect (fun text : String × String => do
    let host ← relativeHost text.1 cluster.dnsZone
    return [({ place := ⟨cluster.dnsZone, host, .txt⟩, value := text.2, category := .spf } : Desired)])
    texts
  let host ← relativeHost cluster.defaultDomain cluster.dnsZone
  return records ++ [{
    place := ⟨cluster.dnsZone, host, .txt⟩
    value := spfText ["include:" ++ spfInclude cluster]
    category := .spf }]

/-! ## Operations on the rows -/

/-- Reconciles an owner's rows; `none` where a row is refused or could not be built. -/
def reconcile (s : State) (owner : Owner) (records : Option (List Desired)) : Option State := do
  let desired ← records
  match s.table.reconcile site owner desired with
  | .ok table => return { s with table := table }
  | .error _ => none

def State.node (s : State) (name : String) : Option StalwartNode :=
  s.nodes.find? fun node => node.name = name

/-- A node's `db_set`. -/
def State.setNode (s : State) (node : StalwartNode) : State :=
  { s with nodes := s.nodes.map fun other => if other.name = node.name then node else other }

/-- `StalwartNode.set_status`. -/
def State.setNodeStatus (s : State) (node : StalwartNode) (status : NodeStatus) : State :=
  s.setNode { node with status := status }

/-- A gateway's `db_set`. -/
def State.setGateway (s : State) (name : String) (gateway : EgressGateway) : State :=
  { s with gateways := Function.update s.gateways name (some gateway) }

/-- `sync_node_records`. -/
def syncNodeRecords (s : State) (name : String) (includeIngress : Bool) : Option State := do
  let node ← s.node name
  let s ← reconcile site s (nodeOwner name) (nodeRecords cluster node includeIngress)
  return if includeIngress ≠ node.inIngressDns then
      s.setNode { node with inIngressDns := includeIngress }
    else s

/-- `sync_spf_record`. -/
def syncSpfRecord (s : State) : Option State :=
  reconcile site s (clusterOwner cluster) (spfRecords cluster (sendingIps s))

/-- `sync_gateway_records`. -/
def syncGatewayRecords (s : State) (name : String) : Option State := do
  let gateway ← s.gateways name
  reconcile site s (gatewayOwner name) (gatewayRecords cluster name gateway)

/-- `sync_pool_records`. -/
def syncPoolRecords (s : State) (pool : EgressIPPool) : Option State :=
  reconcile site s (poolOwner cluster pool) (poolRecords cluster s pool)

/-! ## Nodes -/

/-- What a server answers when its health is checked. -/
inductive Health
  | ready
  /-- It does not answer, or the registry names a problem; the deadline may have passed. -/
  | notReady (expired : Bool)
  deriving DecidableEq

/-- `serves_clients`. -/
def StalwartNode.servesClients (node : StalwartNode) : Bool := node.role ≠ .outbound

/-- `activate_node`. -/
def activateNode (s : State) (name : String) : Option State := do
  let node ← s.node name
  if node.enabled = false then none
  else
    let s ← syncNodeRecords site cluster (s.setNodeStatus node .active) name node.servesClients
    syncSpfRecord site cluster s

/-- `_not_ready`. -/
def notReady (s : State) (node : StalwartNode) (expired : Bool) : State :=
  if expired ∧ node.status = .provisioned then s.setNodeStatus node .failed else s

/-- `finish_bootstrap`. -/
def finishBootstrap (s : State) (health : Health) : Option State :=
  match s.bootstrapNode with
  | none => some s
  | some name => do
      let node ← s.node name
      if node.status ≠ .provisioned then return s
      else
        match health with
        | .notReady true => return { notReady s node true with clusterStatus := .failed }
        | .notReady false => return s
        | .ready => activateNode site cluster { s with clusterStatus := .active } name

/-- `check_node`. -/
def checkNode (s : State) (name : String) (health : Health) : Option State := do
  let node ← s.node name
  if s.clusterStatus = .bootstrapping ∧ node.isBootstrapNode then finishBootstrap site cluster s health
  else if s.clusterStatus ≠ .active then return s
  else
    match health with
    | .notReady expired => return notReady s node expired
    | .ready =>
        if node.status = .provisioned then activateNode site cluster s name else return s

/-- `drain_node`. -/
def drainNode (s : State) (name : String) : Option State := do
  let s ← syncNodeRecords site cluster s name false
  let node ← s.node name
  let status := if node.status = .active then NodeStatus.draining else .disabled
  syncSpfRecord site cluster (s.setNodeStatus node status)

/-- `restore_node`. -/
def restoreNode (s : State) (name : String) (health : Health) : Option State := do
  let node ← s.node name
  if node.enabled = false then none
  else checkNode site cluster (s.setNodeStatus node .provisioned) name health

/-- `provision_node`, which starts the job. -/
def provisionNode (s : State) (name : String) : Option State := do
  let node ← s.node name
  if node.enabled = false then none
  else if s.clusterStatus = .failed ∨
      (s.clusterStatus = .pending ∧ (s.bootstrapNode = none ∨ s.bootstrapNode = some name)) ∨
      (cluster.singleNode = true ∧ s.clusterStatus = .active ∧ s.bootstrapNode = some name) then
    if node.servesClients = false then none
    else
      return { s with clusterStatus := .bootstrapping, bootstrapNode := some name }.setNode
        { node with isBootstrapNode := true, status := .provisioning }
  else if s.clusterStatus = .bootstrapping ∧ node.isBootstrapNode then
    return s.setNodeStatus node .provisioning
  else if s.clusterStatus = .active then return s.setNodeStatus node .provisioning
  else none

/-- `after_provision`. -/
def afterProvision (s : State) (name : String) (health : Health) : Option State := do
  let node ← s.node name
  let retried := node.isBootstrapNode ∧ s.clusterStatus = .failed ∧ s.bootstrapNode = some name
  let s := if retried then { s with clusterStatus := .bootstrapping } else s
  let s ← syncNodeRecords site cluster (s.setNodeStatus node .provisioned) name node.isBootstrapNode
  let s ← syncSpfRecord site cluster s
  checkNode site cluster s name health

/-- `after_provision_failed`. -/
def afterProvisionFailed (s : State) (name : String) (exhausted : Bool) : Option State := do
  let node ← s.node name
  let s := s.setNodeStatus node .failed
  return if node.isBootstrapNode ∧ s.clusterStatus = .bootstrapping ∧ exhausted then
      { s with clusterStatus := .failed }
    else s

/-- `is_last_ingress_node`. -/
def isLastIngressNode (s : State) (node : StalwartNode) : Bool :=
  node.inIngressDns && !s.nodes.any fun other => other.inIngressDns ∧ other.name ≠ node.name

/-- `upgrade_node`, which starts the job. -/
def upgradeNode (s : State) (name : String) : Option State := do
  let node ← s.node name
  if node.enabled = false then none
  else if node.status = .active ∧ isLastIngressNode s node = false then drainNode site cluster s name
  else return s

/-- `after_upgrade`. -/
def afterUpgrade (s : State) (name : String) (health : Health) : Option State := do
  let node ← s.node name
  checkNode site cluster (s.setNodeStatus node .provisioned) name health

/-- `StalwartNode.insert`. -/
def insertNode (s : State) (name : String) (ipv4 : Ip) (ipv6 : Option Ip) (role : Role)
    (enabled : Bool) : Option State :=
  if (s.node name).isSome then none
  else syncNodeRecords site cluster
    { s with nodes := s.nodes ++ [⟨name, ipv4, ipv6, .pending, enabled, role, false, false⟩] } name false

/-- The first half of `StalwartNode.on_update`: the records follow another address. -/
def moveNode (s : State) (before : StalwartNode) (ipv4 : Ip) (ipv6 : Option Ip) : Option State :=
  if before.ipv4Address ≠ ipv4 ∨ before.ipv6Address ≠ ipv6 then do
    let s ← syncNodeRecords site cluster s before.name before.inIngressDns
    syncSpfRecord site cluster s
  else some s

/-- `StalwartNode.save` with other addresses, role or enabled. -/
def saveNode (s : State) (name : String) (ipv4 : Ip) (ipv6 : Option Ip) (role : Role)
    (enabled : Bool) : Option State := do
  let before ← s.node name
  let s := s.setNode
    { before with ipv4Address := ipv4, ipv6Address := ipv6, role := role, enabled := enabled }
  let s ← moveNode site cluster s before ipv4 ipv6
  if before.enabled ∧ enabled = false ∧ (before.status = .active ∨ before.status = .provisioned) then
    drainNode site cluster s name
  else return s

/-- `StalwartNode.delete`. -/
def deleteNode (s : State) (name : String) : Option State := do
  let node ← s.node name
  if node.status ≠ .pending ∧ node.status ≠ .failed ∧ node.status ≠ .disabled then none
  else if node.isBootstrapNode ∧ s.clusterStatus = .active then none
  else
    let s := if s.bootstrapNode = some name then
        { s with bootstrapNode := none, clusterStatus := .pending }
      else s
    let s ← reconcile site s (nodeOwner name) (some [])
    syncSpfRecord site cluster { s with nodes := s.nodes.filter fun other => other.name ≠ name }

/-! ## Gateways -/

/-- The pool has an address on the gateway. -/
def EgressIPPool.hosts (pool : EgressIPPool) (name : String) : Bool :=
  pool.addresses.any fun row => row.gateway = name

/-- `EgressGateway.pools`. -/
def poolsOf (s : State) (name : String) : List EgressIPPool :=
  (s.pools.filter fun pool => pool.hosts name).mergeSort fun a b => a.poolName.text ≤ b.poolName.text

/-- `resync_pool_records`, and the loop of a save with another address. -/
def syncPools (s : State) (pools : List EgressIPPool) : Option State :=
  pools.foldlM (syncPoolRecords site cluster) s

/-- `EgressGateway.set_status`. -/
def setGatewayStatus (s : State) (name : String) (status : GatewayStatus) : Option State := do
  let gateway ← s.gateways name
  let after := s.setGateway name { gateway with status := status }
  if (gateway.status = .active) ≠ (status = .active) then
    syncPools site cluster after (poolsOf after name)
  else return after

/-- `check_gateway`. -/
def checkGateway (s : State) (name : String) (health : Health) : Option State := do
  let gateway ← s.gateways name
  if gateway.status ≠ .provisioned ∧ gateway.status ≠ .active then return s
  else
    match health with
    | .notReady expired =>
        if expired ∧ gateway.status = .provisioned then setGatewayStatus site cluster s name .failed
        else return s
    | .ready =>
        -- A bare `db_set`: the pools' records do not follow.
        if gateway.status ≠ .active then return s.setGateway name { gateway with status := .active }
        else return s

/-- `after_gateway_provision`. -/
def afterGatewayProvision (s : State) (name : String) (health : Health) : Option State := do
  let gateway ← s.gateways name
  checkGateway site cluster (s.setGateway name { gateway with status := .provisioned }) name health

/-- `EgressGateway.after_upgrade`. -/
def afterGatewayUpgrade (s : State) (name : String) (health : Health) : Option State := do
  let s ← setGatewayStatus site cluster s name .provisioned
  checkGateway site cluster s name health

/-- `EgressGateway.insert`. -/
def insertGateway (s : State) (name : String) (ipv4 : Ip) (enabled : Bool) : Option State :=
  if (s.gateways name).isSome then none
  else syncGatewayRecords site cluster (s.setGateway name ⟨ipv4, .pending, enabled⟩) name

/-- The first half of `EgressGateway.on_update`: the records follow another address. -/
def moveGateway (s : State) (name : String) (before : EgressGateway) (ipv4 : Ip) : Option State :=
  if before.ipv4Address ≠ ipv4 then do
    let s ← syncGatewayRecords site cluster s name
    syncPools site cluster s (poolsOf s name)
  else some s

/-- `EgressGateway.save` with another address or enabled. -/
def saveGateway (s : State) (name : String) (ipv4 : Ip) (enabled : Bool) : Option State := do
  let before ← s.gateways name
  let s := s.setGateway name { before with ipv4Address := ipv4, enabled := enabled }
  let s ← moveGateway site cluster s name before ipv4
  if before.enabled ∧ enabled = false ∧ (before.status = .provisioned ∨ before.status = .active) then
    setGatewayStatus site cluster s name .disabled
  else return s

/-- `EgressGateway.delete`. -/
def deleteGateway (s : State) (name : String) : Option State := do
  let gateway ← s.gateways name
  if gateway.status = .provisioning ∨ gateway.status = .provisioned ∨ gateway.status = .active then none
  else if s.pools.any fun pool => pool.hosts name then none
  else
    let s ← reconcile site s (gatewayOwner name) (some [])
    return { s with gateways := Function.update s.gateways name none }

/-! ## Pools -/

/-- `validate_addresses`: every gateway is the cluster's, and no address is listed twice or in another
pool. -/
def validAddresses (s : State) (pool : EgressIPPool) : Prop :=
  (∀ row ∈ pool.addresses, (s.gateways row.gateway).isSome) ∧
    (pool.addresses.map PoolAddress.ipAddress).Nodup ∧
    ∀ other ∈ s.pools, other.poolName ≠ pool.poolName → ∀ row ∈ pool.addresses,
      ∀ taken ∈ other.addresses, taken.ipAddress ≠ row.ipAddress

instance (s : State) (pool : EgressIPPool) : Decidable (validAddresses s pool) :=
  inferInstanceAs (Decidable (_ ∧ _ ∧ _))

/-- The pools with this one in the place of the one of its name, or added. -/
def storePool (pools : List EgressIPPool) (pool : EgressIPPool) : List EgressIPPool :=
  if pools.any fun other => other.poolName = pool.poolName then
    pools.map fun other => if other.poolName = pool.poolName then pool else other
  else pools ++ [pool]

/-- `EgressIPPool.insert` and `save`. -/
def savePool (s : State) (pool : EgressIPPool) : Option State :=
  if validAddresses s pool then
    let before := s.pools.find? fun other => other.poolName = pool.poolName
    let after := { s with pools := storePool s.pools pool }
    if before.any fun before => before.sameSnapshot pool then some after
    else do
      let after ← syncPoolRecords site cluster after pool
      syncSpfRecord site cluster after
  else none

/-- `EgressIPPool.delete`. -/
def deletePool (s : State) (pool : EgressIPPool) : Option State :=
  if pool ∈ s.pools then do
    let s ← reconcile site s (poolOwner cluster pool) (some [])
    syncSpfRecord site cluster
      { s with pools := s.pools.filter fun other => other.poolName ≠ pool.poolName }
  else none

/-! ## The system -/

inductive Action
  | insertNode (name : String) (ipv4 : Ip) (ipv6 : Option Ip) (role : Role) (enabled : Bool)
  | saveNode (name : String) (ipv4 : Ip) (ipv6 : Option Ip) (role : Role) (enabled : Bool)
  | deleteNode (name : String)
  | provisionNode (name : String)
  | afterProvision (name : String) (health : Health)
  | afterProvisionFailed (name : String) (exhausted : Bool)
  | upgradeNode (name : String)
  | afterUpgrade (name : String) (health : Health)
  | afterUpgradeFailed (name : String)
  | checkNode (name : String) (health : Health)
  | drainNode (name : String)
  | restoreNode (name : String) (health : Health)
  | finishBootstrap (health : Health)
  /-- The cluster is disabled or enabled. -/
  | enableCluster (enabled : Bool)
  | insertGateway (name : String) (ipv4 : Ip) (enabled : Bool)
  | saveGateway (name : String) (ipv4 : Ip) (enabled : Bool)
  | deleteGateway (name : String)
  | provisionGateway (name : String)
  | afterGatewayProvision (name : String) (health : Health)
  | afterGatewayProvisionFailed (name : String)
  | afterGatewayUpgrade (name : String) (health : Health)
  | afterGatewayUpgradeFailed (name : String)
  | checkGateway (name : String) (health : Health)
  | savePool (pool : EgressIPPool)
  | deletePool (pool : EgressIPPool)
  deriving DecidableEq

/-- **One operation**, to its commit. -/
def step (s : State) : Action → Option State
  | .insertNode name ipv4 ipv6 role enabled => insertNode site cluster s name ipv4 ipv6 role enabled
  | .saveNode name ipv4 ipv6 role enabled => saveNode site cluster s name ipv4 ipv6 role enabled
  | .deleteNode name => deleteNode site cluster s name
  | .provisionNode name => provisionNode cluster s name
  | .afterProvision name health => afterProvision site cluster s name health
  | .afterProvisionFailed name exhausted => afterProvisionFailed s name exhausted
  | .upgradeNode name => upgradeNode site cluster s name
  | .afterUpgrade name health => afterUpgrade site cluster s name health
  | .afterUpgradeFailed name => (s.node name).map fun node => s.setNodeStatus node .failed
  | .checkNode name health => checkNode site cluster s name health
  | .drainNode name => drainNode site cluster s name
  | .restoreNode name health => restoreNode site cluster s name health
  | .finishBootstrap health => finishBootstrap site cluster s health
  | .enableCluster enabled =>
      if enabled = false ∧ s.clusterStatus = .active then some { s with clusterStatus := .disabled }
      else if enabled = true ∧ s.clusterStatus = .disabled then some { s with clusterStatus := .active }
      else some s
  | .insertGateway name ipv4 enabled => insertGateway site cluster s name ipv4 enabled
  | .saveGateway name ipv4 enabled => saveGateway site cluster s name ipv4 enabled
  | .deleteGateway name => deleteGateway site s name
  | .provisionGateway name => setGatewayStatus site cluster s name .provisioning
  | .afterGatewayProvision name health => afterGatewayProvision site cluster s name health
  | .afterGatewayProvisionFailed name => setGatewayStatus site cluster s name .failed
  | .afterGatewayUpgrade name health => afterGatewayUpgrade site cluster s name health
  | .afterGatewayUpgradeFailed name => setGatewayStatus site cluster s name .failed
  | .checkGateway name health => checkGateway site cluster s name health
  | .savePool pool => savePool site cluster s pool
  | .deletePool pool => deletePool site cluster s pool

/-- `StalwartCluster.insert`: a new cluster, among the rows of other owners. -/
def insertCluster (table : Table) : Option State :=
  syncSpfRecord site cluster ⟨.pending, none, [], fun _ => none, [], table⟩

/-- A cluster in the zone `io`. -/
def oneCluster : StalwartCluster where
  name := "c1"
  label := "eu"
  dnsZone := "io"
  singleNode := false
  unspaced := forall_mem_of_all (by decide)
  zoned := by decide

theorem named_nil : ∀ row ∈ ([] : List Row), row.name < 0 := by
  intro row member
  cases member

def noRows : Table := ⟨[], 0, List.nodup_nil, named_nil⟩

/-! ## Hosts in the zone -/

variable {site cluster}

theorem relativeHost_under (label : String) :
    relativeHost (label ++ "." ++ cluster.defaultDomain) cluster.dnsZone =
      some (label ++ "." ++ cluster.host) := by
  rw [← relativeHost_append (label ++ "." ++ cluster.host) cluster.dnsZone]
  simp only [StalwartCluster.defaultDomain, StalwartCluster.hostname, String.append_assoc]

theorem host_unspaced : ∀ c ∈ cluster.host.toList, isSpace c = false := by
  intro c member
  rw [StalwartCluster.host, String.toList_append, List.mem_append] at member
  rcases member with mail | label
  · have unspaced : ∀ c ∈ "mail.".toList, isSpace c = false := forall_mem_of_all (by decide)
    exact unspaced c mail
  · exact cluster.unspaced c label

theorem host_ne_nil : cluster.host.toList ≠ [] := by
  rw [StalwartCluster.host, String.toList_append]
  exact List.append_ne_nil_of_left_ne_nil (by decide) _

theorem strip_under (label : String) (first : ∀ c ∈ label.toList.head?, isSpace c = false) :
    strip (label ++ "." ++ cluster.host) = label ++ "." ++ cluster.host := by
  refine strip_eq_self ?_ ?_
  · intro c member
    simp only [String.toList_append] at member
    cases chars : label.toList with
    | nil =>
      rw [chars] at member
      obtain rfl := Option.some.inj member
      rfl
    | cons head rest =>
      rw [chars] at member first
      exact first c member
  · intro c member
    simp only [String.toList_append, List.getLast?_append_of_ne_nil _ host_ne_nil] at member
    exact host_unspaced c (List.mem_of_getLast? member)

/-! ## What operations change -/

theorem mem_storePool {pools : List EgressIPPool} {pool found : EgressIPPool}
    (member : found ∈ storePool pools pool) :
    found = pool ∨ (found ∈ pools ∧ found.poolName ≠ pool.poolName) := by
  rw [storePool] at member
  by_cases known : pools.any fun other => other.poolName = pool.poolName
  · rw [if_pos known] at member
    obtain ⟨other, there, rfl⟩ := List.mem_map.mp member
    split
    · exact Or.inl rfl
    · rename_i differs
      exact Or.inr ⟨there, differs⟩
  · rw [if_neg known] at member
    rcases List.mem_append.mp member with there | new
    · refine Or.inr ⟨there, fun same => known (List.any_eq_true.mpr ⟨found, there, ?_⟩)⟩
      exact decide_eq_true same
    · exact Or.inl (List.mem_singleton.mp new)

variable {s s' : State} {owner other : Owner} {records : Option (List Desired)}

theorem savePool_cases {pool : EgressIPPool} (done : savePool site cluster s pool = some s') :
    (∃ before ∈ s.pools, before.poolName = pool.poolName ∧ before.sameSnapshot pool ∧
      s' = { s with pools := storePool s.pools pool }) ∨
    ∃ middle, syncPoolRecords site cluster { s with pools := storePool s.pools pool } pool = some middle ∧
      syncSpfRecord site cluster middle = some s' := by
  rw [savePool] at done
  split at done
  · by_cases unchanged : (s.pools.find? fun other => other.poolName = pool.poolName).any
        fun before => before.sameSnapshot pool
    · rw [if_pos unchanged] at done
      obtain ⟨before, found, same⟩ := (Option.any_eq_true _ _).mp unchanged
      have name : before.poolName = pool.poolName := of_decide_eq_true (List.find?_some found :)
      exact Or.inl ⟨before, List.mem_of_find?_eq_some found, name, of_decide_eq_true same,
        (Option.some.inj done).symm⟩
    · rw [if_neg unchanged] at done
      exact Or.inr (Option.bind_eq_some_iff.mp done)
  · cases done

theorem reconcile_eq_some (done : reconcile site s owner records = some s') :
    ∃ desired table, records = some desired ∧ s.table.reconcile site owner desired = .ok table ∧
      s' = { s with table := table } := by
  obtain ⟨desired, built, done⟩ := Option.bind_eq_some_iff.mp done
  cases result : s.table.reconcile site owner desired with
  | error refused =>
    rw [result] at done
    cases done
  | ok table =>
    rw [result] at done
    exact ⟨desired, table, built, result, (Option.some.inj done).symm⟩

theorem reconcile_rows_of_ne (done : reconcile site s owner records = some s') (differs : other ≠ owner) :
    managedRows s'.table.rows other = managedRows s.table.rows other := by
  obtain ⟨desired, table, -, result, rfl⟩ := reconcile_eq_some done
  exact reconcile_others result differs

/-! ### A node by its name -/

variable {name : String} {node : StalwartNode}

theorem node_mem (here : s.node name = some node) : node ∈ s.nodes ∧ node.name = name :=
  ⟨List.mem_of_find?_eq_some here, of_decide_eq_true (List.find?_some here :)⟩

theorem node_setNode {new : StalwartNode} : (s.setNode new).node name =
    (s.node name).map fun other => if other.name = new.name then new else other := by
  rw [State.node, State.setNode, List.find?_map, State.node]
  congr 2
  funext other
  by_cases same : other.name = new.name
  · simp only [Function.comp_apply, if_pos same]
    rw [same]
  · simp only [Function.comp_apply, if_neg same]

theorem node_setNode_of_ne {written : StalwartNode} (other : name ≠ written.name) :
    (s.setNode written).node name = s.node name := by
  rw [node_setNode]
  cases here : s.node name with
  | none => rfl
  | some found => rw [Option.map_some, if_neg ((node_mem here).2.trans_ne other)]

theorem node_setNodeStatus_of_ne {status : NodeStatus} (differs : name ≠ node.name) :
    (s.setNodeStatus node status).node name = s.node name :=
  node_setNode_of_ne differs

end SuiteCloud.Mail.Cluster.Records
