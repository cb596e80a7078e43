/-
**Upgrades keep a node in the ingress DNS.**

`upgrade_nodes`, `upgrade_node`, its callbacks and the health checks, in any order. An upgrade takes its node
out of the cluster's hostname unless no other node is in it; the callback brings it back once it is healthy,
and a node that fails meanwhile stays where it is.

### What is proved

* `Reachable` — the invariant: names are distinct, a node is in the ingress DNS, and each such serves clients.
* `Reachable.setNode` — **a node's write keeps it**, unless it takes the last one out.
* `drainNode_reachable` and `activateNode_reachable` — what takes a node out, and what puts it in.
* `upgrades_keep_ingress` — **every run keeps a node in the ingress DNS**.
-/

import SuiteCloud.Mail.Cluster.Records.Model

namespace SuiteCloud.Mail.Cluster.Records

open SuiteCloud.Library SuiteCloud.Dns

variable {site : Site} {cluster : StalwartCluster} {s s' : State} {name : String} {node : StalwartNode}

section Model

variable (site cluster)

/-- `upgrade_nodes`. The active nodes are loaded at once; an upgrade writes no other node than its own
(`upgradeNode_others`), so each is still what it was when its turn comes. -/
def upgradeNodes (s : State) : Option State :=
  (s.nodes.filter fun node => node.status = .active).foldlM (fun s node => upgradeNode site cluster s node.name) s

/-- What happens while nodes are upgraded. A job that failed may run again, so its callbacks come at any
time. -/
inductive Upgrade
  | upgradeNodes
  | upgradeNode (name : String)
  | afterUpgrade (name : String) (health : Health)
  | afterUpgradeFailed (name : String)
  | checkNode (name : String) (health : Health)
  | finishBootstrap (health : Health)

/-- **One operation**, to its commit. -/
def upgradeStep (s : State) : Upgrade → Option State
  | .upgradeNodes => upgradeNodes site cluster s
  | .upgradeNode name => step site cluster s (.upgradeNode name)
  | .afterUpgrade name health => step site cluster s (.afterUpgrade name health)
  | .afterUpgradeFailed name => step site cluster s (.afterUpgradeFailed name)
  | .checkNode name health => step site cluster s (.checkNode name health)
  | .finishBootstrap health => step site cluster s (.finishBootstrap health)

end Model

/-- **A node is in the ingress DNS**, and each that is serves clients. -/
structure Reachable (s : State) : Prop where
  distinct : (s.nodes.map StalwartNode.name).Nodup
  serves : ∀ node ∈ s.nodes, node.inIngressDns = true → node.servesClients = true
  present : ∃ node ∈ s.nodes, node.inIngressDns = true

/-! ### Writes -/

theorem written_setNode (found : s.node name = some node) {written : StalwartNode} (same : written.name = name) :
    (s.setNode written).node name = some written := by
  rw [node_setNode, found, Option.map_some, if_pos ((node_mem found).2.trans same.symm)]

theorem reconcile_nodes {owner : Owner} {records : Option (List Desired)}
    (done : reconcile site s owner records = some s') : s'.nodes = s.nodes := by
  obtain ⟨desired, table, -, -, rfl⟩ := reconcile_eq_some done
  rfl

theorem Reachable.of_nodes (here : Reachable s) (same : s'.nodes = s.nodes) : Reachable s' :=
  ⟨same ▸ here.distinct, same ▸ here.serves, same ▸ here.present⟩

/-- **A write keeps a node in the ingress DNS**: it leaves its own node where it is, puts it in, or there is
another. -/
theorem Reachable.setNode (here : Reachable s) (member : node ∈ s.nodes) {written : StalwartNode}
    (name : written.name = node.name) (serves : written.inIngressDns = true → written.servesClients = true)
    (stays : (node.inIngressDns = true → written.inIngressDns = true) ∨
      ∃ other ∈ s.nodes, other.name ≠ node.name ∧ other.inIngressDns = true) : Reachable (s.setNode written) := by
  have names : (s.setNode written).nodes.map StalwartNode.name = s.nodes.map StalwartNode.name := by
    rw [State.setNode, List.map_map]
    refine List.map_congr_left fun other _ => ?_
    rw [Function.comp_apply]
    split
    · next same => exact same.symm
    · rfl
  have kept {other : StalwartNode} (there : other ∈ s.nodes) (differs : other.name ≠ node.name) :
      other ∈ (s.setNode written).nodes :=
    List.mem_map.mpr ⟨other, there, if_neg (name ▸ differs)⟩
  have own : written ∈ (s.setNode written).nodes := List.mem_map.mpr ⟨node, member, if_pos name.symm⟩
  refine ⟨names ▸ here.distinct, fun other there ingress => ?_, ?_⟩
  · obtain ⟨before, among, rfl⟩ := List.mem_map.mp there
    split at ingress
    · next same =>
      rw [if_pos same]
      exact serves ingress
    · next differs =>
      rw [if_neg differs]
      exact here.serves before among ingress
  · rcases stays with stays | ⟨other, there, differs, ingress⟩
    · obtain ⟨found, among, ingress⟩ := here.present
      by_cases same : found.name = node.name
      · have node : found = node := List.inj_on_of_nodup_map here.distinct among member same
        exact ⟨written, own, stays (node ▸ ingress)⟩
      · exact ⟨found, kept among same, ingress⟩
    · exact ⟨other, kept there differs, ingress⟩

theorem Reachable.setStatus (here : Reachable s) (found : s.node name = some node) (status : NodeStatus) :
    Reachable (s.setNodeStatus node status) :=
  here.setNode (node_mem found).1 rfl (here.serves node (node_mem found).1) (Or.inl id)

/-! ### Operations -/

/-- **A sync of a node's records** keeps it, where it takes out no last node and puts in no node that serves
no clients. -/
theorem syncNodeRecords_reachable (here : Reachable s) (found : s.node name = some node) {includeIngress : Bool}
    (serves : includeIngress = true → node.servesClients = true)
    (stays : (node.inIngressDns = true → includeIngress = true) ∨
      ∃ other ∈ s.nodes, other.name ≠ node.name ∧ other.inIngressDns = true)
    (done : syncNodeRecords site cluster s name includeIngress = some s') : Reachable s' := by
  obtain ⟨read, same, done⟩ := Option.bind_eq_some_iff.mp done
  obtain rfl := Option.some.inj (same.symm.trans found)
  obtain ⟨middle, reconciled, done⟩ := Option.bind_eq_some_iff.mp done
  have nodes := reconcile_nodes reconciled
  obtain rfl := Option.some.inj done
  have between := here.of_nodes nodes
  have member : read ∈ middle.nodes := nodes ▸ (node_mem found).1
  have stays : (read.inIngressDns = true → includeIngress = true) ∨
      ∃ other ∈ middle.nodes, other.name ≠ read.name ∧ other.inIngressDns = true := nodes ▸ stays
  split
  · exact between.setNode member rfl serves stays
  · exact between

theorem syncSpfRecord_reachable (here : Reachable s) (done : syncSpfRecord site cluster s = some s') :
    Reachable s' :=
  here.of_nodes (reconcile_nodes done)

/-- **What puts a node in**: one that serves clients, and it takes none out. -/
theorem activateNode_reachable (here : Reachable s) (done : activateNode site cluster s name = some s') :
    Reachable s' := by
  obtain ⟨node, found, done⟩ := Option.bind_eq_some_iff.mp done
  split at done
  · cases done
  · obtain ⟨middle, synced, spf⟩ := Option.bind_eq_some_iff.mp done
    obtain ⟨member, own⟩ := node_mem found
    have read : (s.setNodeStatus node .active).node name = some { node with status := .active } :=
      written_setNode found own
    exact syncSpfRecord_reachable (syncNodeRecords_reachable (here.setStatus found .active) read id
      (Or.inl (here.serves node member)) synced) spf

theorem notReady_reachable (here : Reachable s) (found : s.node name = some node) (expired : Bool) :
    Reachable (notReady s node expired) := by
  unfold notReady
  split
  · exact here.setStatus found .failed
  · exact here

theorem finishBootstrap_reachable {health : Health} (here : Reachable s)
    (done : finishBootstrap site cluster s health = some s') : Reachable s' := by
  rw [finishBootstrap] at done
  split at done
  · obtain rfl := Option.some.inj done
    exact here
  · obtain ⟨node, found, done⟩ := Option.bind_eq_some_iff.mp done
    split at done
    · obtain rfl := Option.some.inj done
      exact here
    · split at done
      · obtain rfl := Option.some.inj done
        exact (notReady_reachable here found true).of_nodes rfl
      · obtain rfl := Option.some.inj done
        exact here
      · have woken : Reachable { s with clusterStatus := .active } := here.of_nodes rfl
        exact activateNode_reachable woken done

theorem checkNode_reachable {health : Health} (here : Reachable s)
    (done : checkNode site cluster s name health = some s') : Reachable s' := by
  obtain ⟨node, found, done⟩ := Option.bind_eq_some_iff.mp done
  split at done
  · exact finishBootstrap_reachable here done
  · split at done
    · obtain rfl := Option.some.inj done
      exact here
    · split at done
      · obtain rfl := Option.some.inj done
        exact notReady_reachable here found _
      · split at done
        · exact activateNode_reachable here done
        · obtain rfl := Option.some.inj done
          exact here

/-- **What takes a node out**: there is another, or it was not in. -/
theorem drainNode_reachable (here : Reachable s) (found : s.node name = some node)
    (last : isLastIngressNode s node = false) (done : drainNode site cluster s name = some s') :
    Reachable s' := by
  obtain ⟨middle, synced, done⟩ := Option.bind_eq_some_iff.mp done
  obtain ⟨read, again, spf⟩ := Option.bind_eq_some_iff.mp done
  have stays : (node.inIngressDns = true → false = true) ∨
      ∃ other ∈ s.nodes, other.name ≠ node.name ∧ other.inIngressDns = true := by
    rw [isLastIngressNode] at last
    rcases Bool.and_eq_false_iff.mp last with out | others
    · exact Or.inl fun ingress => out.symm.trans ingress
    · obtain ⟨other, there, both⟩ := List.any_eq_true.mp (Bool.not_eq_eq_eq_not.mp others)
      obtain ⟨ingress, differs⟩ := of_decide_eq_true both
      exact Or.inr ⟨other, there, differs, ingress⟩
  have between := syncNodeRecords_reachable here found (fun included => absurd included Bool.false_ne_true) stays
    synced
  exact syncSpfRecord_reachable (between.setStatus again _) spf

theorem upgradeNode_reachable (here : Reachable s) (done : upgradeNode site cluster s name = some s') :
    Reachable s' := by
  obtain ⟨node, found, done⟩ := Option.bind_eq_some_iff.mp done
  split at done
  · cases done
  · split at done
    · next drained => exact drainNode_reachable here found drained.2 done
    · exact Option.some.inj done ▸ here

theorem upgradeNode_others {other : String} (differs : other ≠ name)
    (done : upgradeNode site cluster s name = some s') : s'.node other = s.node other := by
  have nodes {s s' : State} (same : s'.nodes = s.nodes) : s'.node other = s.node other := by
    rw [State.node, State.node, same]
  obtain ⟨node, found, done⟩ := Option.bind_eq_some_iff.mp done
  split at done
  · cases done
  · split at done
    · obtain ⟨middle, synced, done⟩ := Option.bind_eq_some_iff.mp done
      obtain ⟨again, read, spf⟩ := Option.bind_eq_some_iff.mp done
      obtain ⟨first, same, synced⟩ := Option.bind_eq_some_iff.mp synced
      obtain ⟨between, reconciled, synced⟩ := Option.bind_eq_some_iff.mp synced
      have own := (node_mem same).2
      have there := (node_mem read).2
      rw [nodes (reconcile_nodes spf), State.setNodeStatus, node_setNode_of_ne (by rwa [there])]
      obtain rfl := Option.some.inj synced
      split
      · rw [node_setNode_of_ne (by rwa [own]), nodes (reconcile_nodes reconciled)]
      · exact nodes (reconcile_nodes reconciled)
    · exact Option.some.inj done ▸ rfl

theorem upgradeNodes_reachable (here : Reachable s) (done : upgradeNodes site cluster s = some s') :
    Reachable s' := by
  unfold upgradeNodes at done
  generalize s.nodes.filter (fun node => node.status = .active) = nodes at done
  induction nodes generalizing s with
  | nil => exact Option.some.inj done ▸ here
  | cons node nodes ih =>
    rw [List.foldlM_cons] at done
    obtain ⟨middle, first, rest⟩ := Option.bind_eq_some_iff.mp done
    exact ih (upgradeNode_reachable here first) rest

theorem upgradeStep_reachable {action : Upgrade} (here : Reachable s)
    (done : upgradeStep site cluster s action = some s') : Reachable s' := by
  cases action with
  | upgradeNodes => exact upgradeNodes_reachable here done
  | upgradeNode name => exact upgradeNode_reachable here done
  | afterUpgrade name health =>
    obtain ⟨node, found, done⟩ := Option.bind_eq_some_iff.mp done
    exact checkNode_reachable (here.setStatus found .provisioned) done
  | afterUpgradeFailed name =>
    obtain ⟨node, found, rfl⟩ := Option.map_eq_some_iff.mp done
    exact here.setStatus found .failed
  | checkNode name health => exact checkNode_reachable here done
  | finishBootstrap health => exact finishBootstrap_reachable here done

/-! ### Runs -/

/-- **Upgrades keep the cluster reachable.** However nodes are upgraded, with whatever outcomes and health
checks between, a node stays in the ingress DNS. -/
theorem upgrades_keep_ingress {start : State} (distinct : (start.nodes.map StalwartNode.name).Nodup)
    (serves : ∀ node ∈ start.nodes, node.inIngressDns = true → node.servesClients = true)
    (present : ∃ node ∈ start.nodes, node.inIngressDns = true)
    (reached : Reaches (upgradeStep site cluster) anyStep start s) : ∃ node ∈ s.nodes, node.inIngressDns = true :=
  (reached.invariant Reachable ⟨distinct, serves, present⟩ fun here _ taken => upgradeStep_reachable here taken).present

/-- A node of the cluster, active and in the ingress DNS. -/
def servingNode (name : String) (ip : Ip) : StalwartNode := ⟨name, ip, none, .active, true, .full, true, false⟩

/-- An active cluster of two such nodes. -/
def twoServing : State where
  clusterStatus := .active
  bootstrapNode := none
  nodes := [servingNode "n1.mail.eu.io" ⟨"203.0.113.1", by decide +kernel⟩,
    servingNode "n2.mail.eu.io" ⟨"203.0.113.2", by decide +kernel⟩]
  gateways _ := none
  pools := []
  table := noRows

/-- Both are upgraded; the first fails, and the second is upgraded again and comes back. -/
def upgradedInTurn : List Upgrade :=
  [.upgradeNodes, .afterUpgradeFailed "n1.mail.eu.io", .upgradeNode "n2.mail.eu.io",
    .afterUpgrade "n2.mail.eu.io" .ready]

theorem upgrades_keep_ingress_twoServing :
    ∃ s, run (upgradeStep oneZone oneCluster) twoServing upgradedInTurn = some s ∧
      s.nodes.map (fun node => (node.status, node.inIngressDns)) = [(.failed, false), (.active, true)] ∧
      ∃ node ∈ s.nodes, node.inIngressDns = true := by
  have seen : (run (upgradeStep oneZone oneCluster) twoServing upgradedInTurn).map (fun s =>
      s.nodes.map fun node => (node.status, node.inIngressDns)) = some [(.failed, false), (.active, true)] := by
    decide +kernel
  obtain ⟨s, ends, nodes⟩ := Option.map_eq_some_iff.mp seen
  have reached : Reaches (upgradeStep oneZone oneCluster) anyStep twoServing s :=
    reaches_of_run (runMeets_of_forall fun _ _ _ => trivial) ends
  refine ⟨s, ends, nodes, upgrades_keep_ingress ?_ ?_ ?_ reached⟩
  · decide +kernel
  · decide +kernel
  · decide +kernel

end SuiteCloud.Mail.Cluster.Records
